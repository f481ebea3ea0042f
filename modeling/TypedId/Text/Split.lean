/-!
Lists cut up at a separator and put together again. The two undo each other: putting the pieces together gives
the list back, and pieces without a separator inside come out of the cut as they went in.
-/
namespace TypedId.Text

variable {α : Type} [DecidableEq α]

/-- The pieces between the separators; always at least one. -/
def split (separator : α) : List α → List (List α)
  | [] => [[]]
  | a :: rest =>
    if a = separator then [] :: split separator rest
    else match split separator rest with
      | piece :: more => (a :: piece) :: more
      | [] => [[a]]

omit [DecidableEq α] in
/-- The pieces with a separator between each two. -/
def join (separator : α) : List (List α) → List α
  | [] => []
  | [piece] => piece
  | piece :: next :: rest => piece ++ separator :: join separator (next :: rest)

theorem split_ne_nil (separator : α) (s : List α) : split separator s ≠ [] := by
  cases s with
  | nil => simp [split]
  | cons a rest =>
    unfold split
    split
    · simp
    · split <;> simp

theorem split_cons_of_ne {separator a : α} (h : a ≠ separator) {rest piece : List α}
    {more : List (List α)} (hs : split separator rest = piece :: more) :
    split separator (a :: rest) = (a :: piece) :: more := by
  rw [split, if_neg h, hs]

omit [DecidableEq α] in
theorem join_cons (separator : α) (piece : List α) {pieces : List (List α)} (h : pieces ≠ []) :
    join separator (piece :: pieces) = piece ++ separator :: join separator pieces := by
  cases pieces with
  | nil => exact absurd rfl h
  | cons next rest => rfl

theorem join_split (separator : α) (s : List α) : join separator (split separator s) = s := by
  induction s with
  | nil => rfl
  | cons a rest ih =>
    by_cases h : a = separator
    · rw [split, if_pos h, join_cons separator [] (split_ne_nil separator rest), ih, h]
      rfl
    · obtain ⟨piece, more, hs⟩ := List.exists_cons_of_ne_nil (split_ne_nil separator rest)
      rw [split_cons_of_ne h hs]
      rw [hs] at ih
      cases more with
      | nil =>
        simp only [join] at ih ⊢
        rw [ih]
      | cons next others =>
        rw [join_cons separator _ (by simp)] at ih ⊢
        rw [List.cons_append, ih]

/-- A piece without a separator, and one after it, begins the cut. -/
theorem split_append_cons {separator : α} {piece : List α} (h : separator ∉ piece) (rest : List α) :
    split separator (piece ++ separator :: rest) = piece :: split separator rest := by
  induction piece with
  | nil => rw [List.nil_append, split, if_pos rfl]
  | cons a more ih =>
    rw [List.mem_cons, not_or] at h
    rw [List.cons_append, split_cons_of_ne (Ne.symm h.1) (ih h.2)]

theorem split_of_not_mem {separator : α} {piece : List α} (h : separator ∉ piece) :
    split separator piece = [piece] := by
  induction piece with
  | nil => rfl
  | cons a more ih =>
    rw [List.mem_cons, not_or] at h
    rw [split_cons_of_ne (Ne.symm h.1) (ih h.2)]

theorem split_join {separator : α} {pieces : List (List α)} (hne : pieces ≠ [])
    (h : ∀ piece ∈ pieces, separator ∉ piece) : split separator (join separator pieces) = pieces := by
  induction pieces with
  | nil => exact absurd rfl hne
  | cons piece rest ih =>
    have hpiece : separator ∉ piece := h piece (by simp)
    cases rest with
    | nil => exact split_of_not_mem hpiece
    | cons next others =>
      rw [join_cons separator piece (by simp), split_append_cons hpiece,
        ih (by simp) fun p hp => h p (List.mem_cons_of_mem piece hp)]

end TypedId.Text
