set_option autoImplicit false

/-! Cutting a list at a separator. -/

namespace Leasehold.Text

variable {α : Type} [DecidableEq α]

/-- Cut at every separator, which belongs to no piece. -/
def pieces (separator : α) : List α → List (List α)
  | [] => [[]]
  | item :: rest =>
      if item = separator then [] :: pieces separator rest
      else match pieces separator rest with
        | [] => [[item]]
        | first :: others => (item :: first) :: others

theorem pieces_ne_nil (separator : α) (items : List α) : pieces separator items ≠ [] := by
  cases items with
  | nil => simp [pieces]
  | cons item rest =>
      unfold pieces
      split
      · simp
      · split <;> simp

/-- The pieces, joined by the separator, are the list again. -/
theorem intercalate_pieces (separator : α) (items : List α) :
    [separator].intercalate (pieces separator items) = items := by
  induction items with
  | nil => rfl
  | cons item rest ih =>
      unfold pieces
      split
      · next same =>
          cases found : pieces separator rest with
          | nil => exact absurd found (pieces_ne_nil separator rest)
          | cons first others =>
              rw [found] at ih
              simp [List.intercalate, List.intersperse, same] at ih ⊢
              exact ih
      · cases found : pieces separator rest with
        | nil => exact absurd found (pieces_ne_nil separator rest)
        | cons first others =>
            rw [found] at ih
            cases others with
            | nil => simp [List.intercalate, List.intersperse] at ih ⊢; exact ih
            | cons second more => simp [List.intercalate, List.intersperse] at ih ⊢; exact ih

end Leasehold.Text
