import WadCatalog.Marker.Table

/-
  What one pass over a directory finds out about its markers.

  The pass carries two things that depend on each other: the latest marker of any label, and the last
  range closed under each label.  Here both are read off the names that were passed:

  1. **The last place of a kind** (`lastBefore?`).  Everything that the pass remembers is the last
     place, before some bound, at which something holds.  One more place changes it only if the same
     holds there (`lastBefore?_succ`).
  2. **One lump** (`Scan.Tells.step`).  If the state of a pass tells what is in the names passed so
     far, it does so after one more name.  A closing marker ends its range at the latest marker *and*
     is the latest marker from then on, so the two have to be shown together.
  3. **The whole pass** (`Scan.Tells.run`) is an induction on the names still to come, and gives the
     table for a list of names (`get?_ofNames`): a label has a range if it is closed at all, from the
     last marker before its last closing marker to that one.
-/

namespace WadCatalog

/-! ## The last place of a kind -/

/-- The last place before a bound at which something holds. -/
def lastBefore? (bound : Nat) (holds : Nat → Bool) : Option Nat :=
  (List.range bound).reverse.find? holds

/-- One more place is the last one if the same holds there. -/
theorem lastBefore?_succ (bound : Nat) (holds : Nat → Bool) :
    lastBefore? (bound + 1) holds =
      if holds bound then some bound else lastBefore? bound holds := by
  unfold lastBefore?
  rw [List.range_succ, List.reverse_append, List.reverse_singleton, List.singleton_append,
    List.find?_cons]
  cases holds bound <;> rfl

/-- Nothing but the places before the bound counts. -/
theorem lastBefore?_congr {bound : Nat} {holds holds' : Nat → Bool}
    (h : ∀ place, place < bound → holds place = holds' place) :
    lastBefore? bound holds = lastBefore? bound holds' := by
  induction bound with
  | zero => rfl
  | succ bound ih =>
    rw [lastBefore?_succ, lastBefore?_succ, h bound (Nat.lt_succ_self bound)]
    rw [ih fun place hlt => h place (Nat.lt_succ_of_lt hlt)]

theorem lastBefore?_eq_some_iff {bound : Nat} {holds : Nat → Bool} {last : Nat} :
    lastBefore? bound holds = some last ↔
      last < bound ∧ holds last = true ∧
        ∀ later, last < later → later < bound → holds later = false := by
  induction bound with
  | zero => simp [lastBefore?]
  | succ bound ih =>
    rw [lastBefore?_succ]
    split
    next hbound =>
      constructor
      · intro h
        cases h
        exact ⟨Nat.lt_succ_self _, hbound, fun later hafter hbefore => by omega⟩
      · rintro ⟨hlt, hlast, hlater⟩
        rcases Nat.lt_or_eq_of_le (Nat.le_of_lt_succ hlt) with hbefore | rfl
        · exact absurd hbound (by simp [hlater bound hbefore (Nat.lt_succ_self bound)])
        · rfl
    next hbound =>
      rw [ih]
      constructor
      · rintro ⟨hlt, hlast, hlater⟩
        refine ⟨Nat.lt_succ_of_lt hlt, hlast, ?_⟩
        intro later hafter hbefore
        rcases Nat.lt_or_eq_of_le (Nat.le_of_lt_succ hbefore) with hinside | rfl
        · exact hlater later hafter hinside
        · simpa using hbound
      · rintro ⟨hlt, hlast, hlater⟩
        have hne : last ≠ bound := by
          rintro rfl
          exact hbound hlast
        exact ⟨by omega, hlast, fun later hafter hbefore => hlater later hafter (by omega)⟩

/-- There is a last place if there is any. -/
theorem exists_lastBefore? {bound : Nat} {holds : Nat → Bool} {place : Nat} (hlt : place < bound)
    (hplace : holds place = true) : ∃ last, lastBefore? bound holds = some last := by
  apply Option.isSome_iff_exists.1
  rw [lastBefore?, List.find?_isSome]
  exact ⟨place, List.mem_reverse.2 (List.mem_range.2 hlt), hplace⟩

/-! ## Markers in a list of names -/

namespace MarkerTable

/-- The marker at a place of a list of names. -/
def markerAt? (names : List LumpName) (id : LumpId) : Option Marker :=
  names[id]?.bind Marker.ofName?

/-- The last marker before a place. -/
def markerBefore? (names : List LumpName) (id : LumpId) : Option LumpId :=
  lastBefore? id fun place => (markerAt? names place).isSome

/-- The last closing marker of a label. -/
def closing? (names : List LumpName) (label : String) : Option LumpId :=
  lastBefore? names.length fun place => markerAt? names place = some ⟨label, .closing⟩

theorem markerAt?_append_left {front : List LumpName} (back : List LumpName) {id : LumpId}
    (h : id < front.length) : markerAt? (front ++ back) id = markerAt? front id := by
  rw [markerAt?, List.getElem?_append_left h, markerAt?]

@[simp] theorem markerAt?_concat (front : List LumpName) (name : LumpName) :
    markerAt? (front ++ [name]) front.length = Marker.ofName? name := by
  rw [markerAt?, List.getElem?_concat_length]
  rfl

/-- There is no marker behind the names. -/
theorem lt_of_markerAt? {names : List LumpName} {id : LumpId} {marker : Marker}
    (h : markerAt? names id = some marker) : id < names.length := by
  obtain ⟨name, hname, -⟩ := Option.bind_eq_some_iff.1 h
  exact (List.getElem?_eq_some_iff.1 hname).1

theorem markerBefore?_append_left {front : List LumpName} (back : List LumpName) {id : LumpId}
    (h : id ≤ front.length) : markerBefore? (front ++ back) id = markerBefore? front id := by
  apply lastBefore?_congr
  intro place hplace
  rw [markerAt?_append_left back (Nat.lt_of_lt_of_le hplace h)]

/-- There is a last marker before a place if there is any. -/
theorem exists_markerBefore? {names : List LumpName} {before id : LumpId} (hlt : before < id)
    (hmarker : (markerAt? names before).isSome = true) :
    ∃ last, markerBefore? names id = some last :=
  exists_lastBefore? hlt hmarker

/-- One more name is the latest marker if it is a marker. -/
theorem markerBefore?_concat (front : List LumpName) (name : LumpName) :
    markerBefore? (front ++ [name]) (front.length + 1) =
      if name.isMarker then some front.length else markerBefore? front front.length := by
  rw [markerBefore?, lastBefore?_succ, markerAt?_concat]
  have hfront := markerBefore?_append_left [name] (Nat.le_refl front.length)
  rw [← hfront]
  rfl

/-- One more name closes the label last if it is a closing marker of it. -/
theorem closing?_concat (front : List LumpName) (name : LumpName) (label : String) :
    closing? (front ++ [name]) label =
      if Marker.ofName? name = some ⟨label, .closing⟩ then some front.length
      else closing? front label := by
  have hfront : (lastBefore? front.length fun place =>
      decide (markerAt? (front ++ [name]) place = some ⟨label, .closing⟩)) =
        closing? front label := by
    apply lastBefore?_congr
    intro place hplace
    rw [markerAt?_append_left [name] hplace]
  rw [closing?, List.length_append, List.length_singleton, lastBefore?_succ, markerAt?_concat,
    hfront]
  simp only [decide_eq_true_eq]

theorem closing?_lt {names : List LumpName} {label : String} {finish : LumpId}
    (h : closing? names label = some finish) : finish < names.length :=
  (lastBefore?_eq_some_iff.1 h).1

/-! ## One lump -/

/-- That the state of a pass tells what is in the names passed so far. -/
structure Scan.Tells (names : List LumpName) (scan : Scan) : Prop where
  /-- The latest marker is the last one of the names. -/
  latest : scan.latest = markerBefore? names names.length
  /-- Each label that was closed has the range up to its last closing marker. -/
  ranges : ∀ label, scan.ranges[label]? =
    (closing? names label).map fun finish => ⟨markerBefore? names finish, finish⟩

theorem Scan.tells_nil : (Scan.mk none ∅).Tells [] := ⟨rfl, fun _ => rfl⟩

/-- The ranges of the names so far stay what they are, whatever comes behind them. -/
theorem map_closing?_append (front back : List LumpName) (label : String) :
    ((closing? front label).map fun finish =>
        (⟨markerBefore? (front ++ back) finish, finish⟩ : MarkerRange)) =
      (closing? front label).map fun finish => ⟨markerBefore? front finish, finish⟩ := by
  apply Option.map_congr
  intro finish hfinish
  rw [markerBefore?_append_left back (Nat.le_of_lt (closing?_lt hfinish))]

/-- **One lump.**  The state of a pass goes on telling what is in the names. -/
theorem Scan.Tells.step {front : List LumpName} {scan : Scan} (h : scan.Tells front)
    (name : LumpName) : (scan.step front.length name).Tells (front ++ [name]) := by
  -- what is not closed here was closed as before
  have hother : ∀ label, Marker.ofName? name ≠ some ⟨label, .closing⟩ →
      (closing? (front ++ [name]) label).map
          (fun finish => (⟨markerBefore? (front ++ [name]) finish, finish⟩ : MarkerRange)) =
        scan.ranges[label]? := by
    intro label hne
    rw [closing?_concat, if_neg hne, map_closing?_append, h.ranges]
  have hlength : (front ++ [name]).length = front.length + 1 := by simp
  unfold Scan.step
  cases hmarker : Marker.ofName? name with
  | none =>
    have hplain : name.isMarker = false := by rw [LumpName.isMarker, hmarker]; rfl
    constructor
    · rw [hlength, markerBefore?_concat, hplain, h.latest]
      rfl
    · exact fun label => (hother label (by simp [hmarker])).symm
  | some marker =>
    have hmarks : name.isMarker = true := by rw [LumpName.isMarker, hmarker]; rfl
    have hlatest : markerBefore? (front ++ [name]) (front ++ [name]).length =
        some front.length := by
      rw [hlength, markerBefore?_concat, if_pos hmarks]
    obtain ⟨closed, side⟩ := marker
    cases side with
    | opening =>
      exact ⟨hlatest.symm, fun label => (hother label (by simp [hmarker])).symm⟩
    | closing =>
      refine ⟨hlatest.symm, ?_⟩
      intro label
      show (scan.ranges.insert closed ⟨scan.latest, front.length⟩)[label]? = _
      rw [Std.TreeMap.getElem?_insert]
      by_cases hlabel : closed = label
      · -- the range ends here, and it began at the latest marker of the names before
        subst hlabel
        rw [if_pos Std.ReflCmp.compare_self, closing?_concat, if_pos hmarker, Option.map_some,
          markerBefore?_append_left _ (Nat.le_refl _), h.latest]
      · rw [if_neg fun heq => hlabel (Std.LawfulEqOrd.eq_of_compare heq)]
        refine (hother label ?_).symm
        simp [hmarker, hlabel]

/-! ## The whole pass -/

/-- **The whole pass** tells what is in all names. -/
theorem Scan.Tells.run {front : List LumpName} {scan : Scan} (h : scan.Tells front)
    (rest : List LumpName) : (scan.run front.length rest).Tells (front ++ rest) := by
  induction rest generalizing front scan with
  | nil =>
    rw [List.append_nil]
    exact h
  | cons name rest ih =>
    have hrest := ih (h.step name)
    rw [List.length_append, List.length_singleton, List.append_assoc] at hrest
    exact hrest

/-- The range of a label ends at its last closing marker, and starts at the last marker before. -/
theorem get?_ofNames (names : List LumpName) (label : String) :
    (ofNames names).get? label =
      (closing? names label).map fun finish => ⟨markerBefore? names finish, finish⟩ :=
  (Scan.tells_nil.run names).ranges label

end MarkerTable

end WadCatalog
