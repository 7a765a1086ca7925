/-
  Cutting a list at a delimiter.

  `n` delimiters make `n + 1` pieces, some of them perhaps empty, and none of them holds the
  delimiter.  Paths are cut at `/` and file names at `.`, so the cut is written once, for any kind
  of element, together with its inverse `join`.
-/

namespace WadCatalog.Delimited

variable {α : Type} [DecidableEq α]

/-- The pieces of a list between its delimiters, empty ones included. -/
def pieces (delimiter : α) : List α → List (List α)
  | [] => [[]]
  | x :: rest =>
    if x = delimiter then [] :: pieces delimiter rest
    else match pieces delimiter rest with
      | [] => [[x]]
      | piece :: more => (x :: piece) :: more

/-- The pieces in order with one delimiter between neighbours. -/
def join (delimiter : α) : List (List α) → List α
  | [] => []
  | [piece] => piece
  | piece :: more => piece ++ delimiter :: join delimiter more

/-- The part before the last delimiter and the part after it, if there is a delimiter. -/
def splitLast? (delimiter : α) (xs : List α) : Option (List α × List α) :=
  let (after, before) := xs.reverse.span (· != delimiter)
  match before with
  | [] => none
  | _ :: before => some (before.reverse, after.reverse)

theorem pieces_ne_nil (delimiter : α) (xs : List α) : pieces delimiter xs ≠ [] := by
  cases xs with
  | nil => simp [pieces]
  | cons x rest =>
    unfold pieces
    split
    · simp
    · split <;> simp

/-- Joining the pieces gives the list back. -/
theorem join_pieces (delimiter : α) (xs : List α) : join delimiter (pieces delimiter xs) = xs := by
  induction xs with
  | nil => rfl
  | cons x rest ih =>
    unfold pieces
    split
    next h =>
      subst h
      cases hp : pieces x rest with
      | nil => exact absurd hp (pieces_ne_nil x rest)
      | cons piece more => rw [hp] at ih; simp [join, ih]
    next h =>
      cases hp : pieces delimiter rest with
      | nil => exact absurd hp (pieces_ne_nil delimiter rest)
      | cons piece more =>
        rw [hp] at ih
        cases more with
        | nil => simpa [join] using ih
        | cons next others => simpa [join] using ih

/-- No piece holds the delimiter. -/
theorem not_mem_of_mem_pieces {delimiter : α} {xs piece : List α}
    (h : piece ∈ pieces delimiter xs) : delimiter ∉ piece := by
  induction xs generalizing piece with
  | nil => simp [pieces] at h; simp [h]
  | cons x rest ih =>
    unfold pieces at h
    split at h
    next =>
      rcases List.mem_cons.1 h with rfl | h
      · simp
      · exact ih h
    next hx =>
      split at h
      next hp => exact absurd hp (pieces_ne_nil delimiter rest)
      next first more hp =>
        rcases List.mem_cons.1 h with rfl | h
        · have := ih (hp ▸ List.mem_cons_self : first ∈ pieces delimiter rest)
          simp [this, Ne.symm hx]
        · exact ih (hp ▸ List.mem_cons_of_mem _ h)

/-- A list without the delimiter is its own only piece. -/
theorem pieces_of_not_mem {delimiter : α} {xs : List α} (h : delimiter ∉ xs) :
    pieces delimiter xs = [xs] := by
  induction xs with
  | nil => rfl
  | cons x rest ih =>
    simp only [List.mem_cons, not_or] at h
    simp [pieces, Ne.symm h.1, ih h.2]

/-- A delimiter between two lists separates their pieces. -/
theorem pieces_append_cons (delimiter : α) (xs ys : List α) :
    pieces delimiter (xs ++ delimiter :: ys) = pieces delimiter xs ++ pieces delimiter ys := by
  induction xs with
  | nil => simp [pieces]
  | cons x rest ih =>
    rw [List.cons_append, pieces, ih, pieces]
    split
    · rfl
    · cases hp : pieces delimiter rest with
      | nil => exact absurd hp (pieces_ne_nil delimiter rest)
      | cons piece more => rfl

example : pieces '/' "a//b".toList = ["a".toList, [], "b".toList] := by decide
example : splitLast? '.' "a.b.c".toList = some ("a.b".toList, "c".toList) := by decide
example : splitLast? '.' "abc".toList = none := by decide

end WadCatalog.Delimited
