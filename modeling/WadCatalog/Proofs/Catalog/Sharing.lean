import Mathlib.Logic.Function.Basic
import WadCatalog.Proofs.Catalog.Entries

/-
  A catalog that is shared.

  Several callers use one catalog at the same time.  Each has its own calls to make, in its own order,
  and each call takes the catalog for itself; which caller comes next is open.  `Step` is one such
  call, and the states that any number of them leads to (`Reachable`) are those of every order in
  which the calls of the callers can be merged.

  1. **One call** keeps the books (`IsKept.step`): the list of entries and the addresses agree, the
     entries are the registrations in the order in which they were made, the ids of containers were
     given out in order, and what a caller has made and has still to make is its script.
  2. **Any merge** keeps them by induction on the calls (`isKept_of_reachable`), and everything a
     catalog is asked can be read off them.
-/

namespace WadCatalog

namespace Catalog

/-- What is asked of a catalog. -/
inductive Call where
  /-- A resource is announced at an address, for a container. -/
  | register (path : ResourcePath) (container : ContainerId)
  /-- An id for a container is wanted. -/
  | allocate
  deriving DecidableEq

/-- A call with its answer. -/
inductive Event (κ : Type) where
  /-- A caller announced a resource at the path and for the container of an entry, and was answered
  with its id. -/
  | registered (caller : κ) (entry : CatalogEntry)
  /-- A caller was given an id for a container. -/
  | allocated (caller : κ) (id : ContainerId)

namespace Event

variable {κ : Type}

/-- Who made the call. -/
def caller : Event κ → κ
  | registered caller _ => caller
  | allocated caller _ => caller

/-- What was asked. -/
def call : Event κ → Call
  | registered _ entry => .register entry.path entry.container
  | allocated _ _ => .allocate

/-- The resource that was announced, under the id that was answered. -/
def added? : Event κ → Option CatalogEntry
  | registered _ entry => some entry
  | allocated _ _ => none

/-- The id that was given to a container. -/
def container? : Event κ → Option ContainerId
  | registered _ _ => none
  | allocated _ id => some id

end Event

/-- A call of some caller: its answer, and the catalog afterwards. -/
def perform {κ : Type} (catalog : Catalog) (caller : κ) : Call → Event κ × Catalog
  | .register path container =>
    let (id, catalog) := catalog.add path container
    (.registered caller ⟨id, path, container⟩, catalog)
  | .allocate =>
    let (id, catalog) := catalog.allocateContainerId
    (.allocated caller id, catalog)

section Perform

variable {κ : Type} (catalog : Catalog) (caller : κ) (call : Call)

@[simp] theorem caller_perform : (catalog.perform caller call).1.caller = caller := by
  cases call <;> rfl

@[simp] theorem call_perform : (catalog.perform caller call).1.call = call := by
  cases call <;> rfl

/-- A registration comes to stand behind the entries, anything else adds none. -/
theorem entries_perform :
    (catalog.perform caller call).2.entries.toList =
      catalog.entries.toList ++ (catalog.perform caller call).1.added?.toList := by
  cases call with
  | register path container => exact Array.toList_push
  | allocate => exact (List.append_nil _).symm

/-- The containers with an id are numbered in the order in which they came. -/
theorem containers_perform :
    (List.range (catalog.perform caller call).2.nextContainer).map ContainerId.mk =
      (List.range catalog.nextContainer).map ContainerId.mk ++
        (catalog.perform caller call).1.container?.toList := by
  cases call with
  | register path container => exact (List.append_nil _).symm
  | allocate =>
    show (List.range (catalog.nextContainer + 1)).map ContainerId.mk = _
    rw [List.range_succ, List.map_append]
    rfl

/-- Every call keeps a catalog consistent. -/
theorem IsConsistent.perform {catalog : Catalog} (h : catalog.IsConsistent) (caller : κ)
    (call : Call) : (catalog.perform caller call).2.IsConsistent := by
  cases call with
  | register path container => exact h.add path container
  | allocate => exact ⟨h.ids, h.byPath⟩

end Perform

end Catalog

open Catalog

/-! ## Callers -/

/-- A catalog and its callers. -/
structure SharedCatalog (κ : Type) where
  /-- The catalog. -/
  catalog : Catalog
  /-- The calls that each caller has still to make. -/
  pending : κ → List Call
  /-- The calls that were made, in the order in which they had the catalog. -/
  log : List (Event κ)

namespace SharedCatalog

variable {κ : Type} [DecidableEq κ]

/-- Before any call, with the calls that each caller is going to make. -/
def start (scripts : κ → List Call) : SharedCatalog κ := ⟨.empty, scripts, []⟩

/-- A caller makes a call, after which it has the rest of its calls to make. -/
def after (shared : SharedCatalog κ) (caller : κ) (call : Call) (rest : List Call) :
    SharedCatalog κ where
  catalog := (shared.catalog.perform caller call).2
  pending := Function.update shared.pending caller rest
  log := shared.log ++ [(shared.catalog.perform caller call).1]

/-- One of the callers, whichever it is, makes its next call. -/
inductive Step : SharedCatalog κ → SharedCatalog κ → Prop where
  /-- The caller has a next call. -/
  | call {shared : SharedCatalog κ} {caller : κ} {call : Call} {rest : List Call}
      (next : shared.pending caller = call :: rest) : Step shared (shared.after caller call rest)

/-- What callers with the given scripts can lead to. -/
inductive Reachable (scripts : κ → List Call) : SharedCatalog κ → Prop where
  /-- Nothing has been called yet. -/
  | start : Reachable scripts (start scripts)
  /-- One more call was made. -/
  | step {shared next : SharedCatalog κ} (before : Reachable scripts shared)
      (step : Step shared next) : Reachable scripts next

/-! ## The books -/

/-- That a shared catalog agrees with what was called. -/
structure IsKept (scripts : κ → List Call) (shared : SharedCatalog κ) : Prop where
  /-- The two ways the catalog keeps its resources tell the same. -/
  consistent : shared.catalog.IsConsistent
  /-- The entries are the registrations. -/
  entries : shared.catalog.entries.toList = shared.log.filterMap Event.added?
  /-- The containers with an id are numbered in order. -/
  containers : shared.log.filterMap Event.container? =
    (List.range shared.catalog.nextContainer).map ContainerId.mk
  /-- What a caller has made and what it has still to make is its script. -/
  scripts : ∀ caller, (shared.log.filter (·.caller = caller)).map Event.call ++
    shared.pending caller = scripts caller

theorem isKept_start (scripts : κ → List Call) : (start scripts).IsKept scripts :=
  ⟨isConsistent_empty, rfl, rfl, fun _ => rfl⟩

/-- **One call** keeps the books. -/
theorem IsKept.step {scripts : κ → List Call} {shared next : SharedCatalog κ}
    (h : shared.IsKept scripts) (hstep : Step shared next) : next.IsKept scripts := by
  cases hstep with | @call caller call rest hnext =>
  refine ⟨h.consistent.perform caller call, ?_, ?_, ?_⟩
  · show (shared.catalog.perform caller call).2.entries.toList = (shared.log ++ [_]).filterMap _
    rw [entries_perform, h.entries, List.filterMap_append]
    cases (shared.catalog.perform caller call).1 <;> rfl
  · show (shared.log ++ [_]).filterMap _ = (List.range
      (shared.catalog.perform caller call).2.nextContainer).map ContainerId.mk
    rw [containers_perform, ← h.containers, List.filterMap_append]
    cases (shared.catalog.perform caller call).1 <;> rfl
  · intro other
    show ((shared.log ++ [(shared.catalog.perform caller call).1]).filter
      (·.caller = other)).map Event.call ++ Function.update shared.pending caller rest other =
        scripts other
    rw [← h.scripts other, List.filter_append, List.map_append]
    by_cases heq : other = caller
    · -- the call moves from what the caller has to make to what it has made
      subst heq
      rw [List.filter_cons_of_pos (by simp), Function.update_self, hnext]
      simp
    · rw [List.filter_cons_of_neg (by simpa using Ne.symm heq), Function.update_of_ne heq]
      simp

/-- **Any merge** of the calls keeps the books. -/
theorem isKept_of_reachable {scripts : κ → List Call} {shared : SharedCatalog κ}
    (h : Reachable scripts shared) : shared.IsKept scripts := by
  induction h with
  | start => exact isKept_start scripts
  | step _ hstep ih => exact ih.step hstep

end SharedCatalog

namespace Catalog

/-! ## What a consistent catalog answers -/

variable {catalog : Catalog}

/-- The ids at an address ascend. -/
theorem IsConsistent.pairwise_lookupAll (h : catalog.IsConsistent) (path : ResourcePath) :
    (catalog.lookupAll path).Pairwise fun one other => one.number < other.number := by
  have hids : (catalog.entries.toList.map (·.id)).Pairwise
      fun one other => one.number < other.number := by
    rw [List.pairwise_iff_getElem]
    intro place other hplace hother hlt
    rw [List.length_map] at hplace hother
    have hone := h.ids place _ (List.getElem?_eq_getElem hplace)
    have htwo := h.ids other _ (List.getElem?_eq_getElem hother)
    rw [List.getElem_map, List.getElem_map, hone, htwo]
    exact hlt
  rw [h.lookupAll_eq]
  exact hids.sublist (List.filter_sublist.map _)

/-- The entry at a place has the place for its id, and is found under it. -/
theorem IsConsistent.get?_of_place (h : catalog.IsConsistent) {place : Nat} {entry : CatalogEntry}
    (hentry : catalog.entries.toList[place]? = some entry) :
    entry.id = ⟨place⟩ ∧ catalog.entries[place]? = some entry ∧
      catalog.get? entry.id = some entry := by
  refine ⟨h.ids place entry hentry, ?_, h.get?_of_mem (List.mem_of_getElem? hentry)⟩
  rw [← Array.getElem?_toList]
  exact hentry

/-- An id is at an address if its entry is. -/
theorem IsConsistent.mem_lookupAll_iff (h : catalog.IsConsistent) {path : ResourcePath}
    {id : ResourceId} :
    id ∈ catalog.lookupAll path ↔ ∃ entry, catalog.get? id = some entry ∧ entry.path = path := by
  rw [h.lookupAll_eq, List.mem_map]
  constructor
  · rintro ⟨entry, hentry, rfl⟩
    obtain ⟨hmem, hpath⟩ := List.mem_filter.1 hentry
    exact ⟨entry, h.get?_of_mem hmem, of_decide_eq_true hpath⟩
  · rintro ⟨entry, hget, hpath⟩
    rw [get?, ← Array.getElem?_toList] at hget
    refine ⟨entry, List.mem_filter.2 ⟨List.mem_of_getElem? hget, decide_eq_true hpath⟩, ?_⟩
    exact h.ids id.number entry hget

/-- What stands for an address is the last of the ids there. -/
theorem lookup?_eq_getLast? (catalog : Catalog) (path : ResourcePath) :
    catalog.lookup? path = (catalog.lookupAll path).getLast? := by
  rw [lookup?, lookupAll, List.getLast?_reverse]

/-- At an address where something was announced, the last resource there stands for it. -/
theorem IsConsistent.exists_lookup? (h : catalog.IsConsistent) {id : ResourceId}
    {entry : CatalogEntry} (hentry : catalog.get? id = some entry) :
    ∃ last, catalog.lookup? entry.path = some last ∧
      (∃ found, catalog.get? last = some found ∧ found.path = entry.path) ∧
      ∀ other found, catalog.get? other = some found → found.path = entry.path →
        other.number ≤ last.number := by
  have hmem : id ∈ catalog.lookupAll entry.path := h.mem_lookupAll_iff.2 ⟨entry, hentry, rfl⟩
  rw [lookup?_eq_getLast?]
  cases hlast : (catalog.lookupAll entry.path).getLast? with
  | none =>
    rw [List.getLast?_eq_none_iff.1 hlast] at hmem
    cases hmem
  | some last =>
    refine ⟨last, rfl, h.mem_lookupAll_iff.1 (List.mem_of_getLast? hlast), ?_⟩
    intro other found hfound hpath
    have hother : other ∈ catalog.lookupAll entry.path :=
      h.mem_lookupAll_iff.2 ⟨found, hfound, hpath⟩
    obtain ⟨front, hfront⟩ := List.getLast?_eq_some_iff.1 hlast
    have hascending := h.pairwise_lookupAll entry.path
    rw [hfront] at hother hascending
    rcases List.mem_append.1 hother with hbefore | hself
    · exact Nat.le_of_lt
        ((List.pairwise_append.1 hascending).2.2 other hbefore last List.mem_cons_self)
    · exact Nat.le_of_eq (congrArg ResourceId.number (List.mem_singleton.1 hself))

end Catalog

namespace SharedCatalog

variable {κ : Type} [DecidableEq κ]

/-- **A shared catalog is right at any time.**  However the calls of any number of callers are merged,
and however far they have come: the entries are the registrations in the order in which they were
made, and each was answered with its place, under which it is found.  The ids at an address are those
of the entries there, ascending, and the last of them stands for the address.  The resources of a
container, and those under an address, are the entries in question in the same order.  No two
containers were given the same id.  And what each caller has made, in this order, is the front of its
script, of which no registration is lost or doubled in the catalog. -/
theorem right_at_any_time {scripts : κ → List Call} {shared : SharedCatalog κ}
    (h : Reachable scripts shared) :
    let catalog := shared.catalog
    let registrations := shared.log.filterMap Event.added?
    catalog.entries.toList = registrations ∧
    (∀ (place : Nat) (made : CatalogEntry), registrations[place]? = some made →
      made.id = ⟨place⟩ ∧ catalog.entries[place]? = some made ∧
        catalog.get? made.id = some made) ∧
    (∀ path, (catalog.lookupAll path).Pairwise (fun one other => one.number < other.number) ∧
      (∀ id, id ∈ catalog.lookupAll path ↔
        ∃ entry, catalog.get? id = some entry ∧ entry.path = path) ∧
      catalog.lookup? path = (catalog.lookupAll path).getLast?) ∧
    (∀ container, catalog.resourcesOf container =
      registrations.filter (·.container = container)) ∧
    (∀ above, catalog.resourcesUnder above =
      registrations.filter fun entry => above.segments <+: entry.path.segments) ∧
    (shared.log.filterMap Event.container?).Nodup ∧
    ∀ caller,
      (shared.log.filter (·.caller = caller)).map Event.call ++ shared.pending caller =
        scripts caller ∧
      ((shared.log.filter (·.caller = caller)).filterMap Event.added?).Sublist
        catalog.entries.toList := by
  intro catalog registrations
  have hkept := isKept_of_reachable h
  have hentries : catalog.entries.toList = registrations := hkept.entries
  refine ⟨hentries, ?_, ?_, ?_, ?_, ?_, ?_⟩
  · intro place made hmade
    rw [← hentries] at hmade
    exact hkept.consistent.get?_of_place hmade
  · intro path
    exact ⟨hkept.consistent.pairwise_lookupAll path,
      fun _ => hkept.consistent.mem_lookupAll_iff, catalog.lookup?_eq_getLast? path⟩
  · intro container
    rw [← hentries]
    rfl
  · intro above
    rw [← hentries]
    apply List.filter_congr
    intro entry _
    rw [ResourcePath.isUnder, Bool.eq_iff_iff, List.isPrefixOf_iff_prefix, decide_eq_true_eq]
  · rw [hkept.containers]
    exact List.nodup_range.map fun _ _ hsame => ContainerId.mk.inj hsame
  · intro caller
    refine ⟨hkept.scripts caller, ?_⟩
    rw [hentries]
    exact List.filter_sublist.filterMap _

/-- The callers make their next calls in the given order, as far as they have any. -/
def follow (shared : SharedCatalog κ) : List κ → SharedCatalog κ
  | [] => shared
  | caller :: order =>
    match shared.pending caller with
    | [] => shared.follow order
    | call :: rest => (shared.after caller call rest).follow order

/-- Any order can come about. -/
theorem Reachable.follow {scripts : κ → List Call} {shared : SharedCatalog κ}
    (h : Reachable scripts shared) (order : List κ) : Reachable scripts (shared.follow order) := by
  induction order generalizing shared with
  | nil => exact h
  | cons caller order ih =>
    rw [SharedCatalog.follow]
    split
    next => exact ih h
    next call rest hnext => exact ih (h.step (.call hnext))

/-- Each of two callers takes an id for a container and registers two resources, one of them at an
address that both use. -/
def twoScripts (caller : Bool) : List Call :=
  [.allocate, .register ⟨["GLOBAL", "A"]⟩ ⟨if caller then 1 else 0⟩,
    .register ⟨["MAPS", "B"]⟩ ⟨if caller then 1 else 0⟩]

/-- The second caller overtakes the first one, which is not through yet. -/
def overtaken : SharedCatalog Bool := (start twoScripts).follow [false, true, true, false, true]

theorem right_at_any_time_overtaken :
    overtaken.catalog.get? ⟨1⟩ = some ⟨⟨1⟩, ⟨["GLOBAL", "A"]⟩, ⟨0⟩⟩ ∧
      (overtaken.catalog.resourcesOf ⟨1⟩).map (·.id) = [⟨0⟩, ⟨2⟩] ∧
      overtaken.pending false = [.register ⟨["MAPS", "B"]⟩ ⟨0⟩] := by
  have hreachable : Reachable twoScripts overtaken := Reachable.start.follow _
  have hmade : overtaken.log.filterMap Event.added? =
      [⟨⟨0⟩, ⟨["GLOBAL", "A"]⟩, ⟨1⟩⟩, ⟨⟨1⟩, ⟨["GLOBAL", "A"]⟩, ⟨0⟩⟩,
        ⟨⟨2⟩, ⟨["MAPS", "B"]⟩, ⟨1⟩⟩] := by
    decide +kernel
  have hcalls : (overtaken.log.filter (·.caller = false)).map Event.call =
      [.allocate, .register ⟨["GLOBAL", "A"]⟩ ⟨0⟩] := by
    decide +kernel
  obtain ⟨-, hplaces, -, howned, -, -, hcallers⟩ := right_at_any_time hreachable
  rw [hmade] at hplaces howned
  obtain ⟨hscript, -⟩ := hcallers false
  rw [hcalls] at hscript
  refine ⟨(hplaces 1 _ rfl).2.2, ?_, ?_⟩
  · rw [howned]
    decide
  · exact List.append_cancel_left hscript

end SharedCatalog

end WadCatalog
