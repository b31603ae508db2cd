import Mathlib.Data.List.DropRight
import Leasehold.Text.Blank
import Leasehold.Text.Decimal

set_option autoImplicit false

/-!
How a word may be spelled: with blanks around it, and as a number in decimal digits.

What is left of a text without the blanks at its ends is the one part of it that has blanks around
and none at its own ends. So reading a trimmed text is reading that part.
-/

namespace Leasehold.Text

variable {text core : List Char} {bound number : Nat}

/-! ### Blanks around -/

def Blank (characters : List Char) : Prop := ∀ character ∈ characters, isBlank character = true

def Bare (characters : List Char) : Prop :=
  (∀ character ∈ characters.head?, isBlank character = false) ∧
    ∀ character ∈ characters.getLast?, isBlank character = false

def Pads (text core : List Char) : Prop :=
  ∃ before after, Blank before ∧ Blank after ∧ text = before ++ core ++ after

theorem bare_of_forall (solid : ∀ character ∈ core, isBlank character = false) : Bare core :=
  ⟨fun character first => solid character (List.mem_of_mem_head? first),
    fun character last => solid character (List.mem_of_mem_getLast? last)⟩

theorem trim_eq (text : List Char) : trim text = (text.dropWhile isBlank).rdropWhile isBlank := rfl

theorem pads_trim (text : List Char) : Pads text (trim text) := by
  refine ⟨text.takeWhile isBlank, (text.dropWhile isBlank).rtakeWhile isBlank, ?_, ?_, ?_⟩
  · exact fun _ => List.mem_takeWhile_imp
  · intro character present
    rw [List.rtakeWhile, List.mem_reverse] at present
    exact List.mem_takeWhile_imp present
  · rw [trim_eq, List.append_assoc, List.rdropWhile_append_rtakeWhile,
      List.takeWhile_append_dropWhile]

theorem bare_trim (text : List Char) : Bare (trim text) := by
  constructor
  · intro character first
    have rest : trim text <+: text.dropWhile isBlank := List.rdropWhile_prefix _ _
    have opening := List.head?_dropWhile_not isBlank text
    obtain ⟨tail, whole⟩ := rest
    rw [← whole, List.head?_append, Option.mem_def.mp first] at opening
    exact opening
  · intro character last
    have solid := List.rdropWhile_last_not isBlank (text.dropWhile isBlank)
    obtain ⟨some, rfl⟩ := List.mem_getLast?_eq_getLast last
    exact Bool.eq_false_iff.mpr (solid some)

theorem dropWhile_isBlank {rest : List Char}
    (solid : ∀ character ∈ rest.head?, isBlank character = false) :
    rest.dropWhile isBlank = rest := by
  cases rest with
  | nil => rfl
  | cons character rest => simp [solid character rfl]

/-- A bare part with blanks around it is what trimming leaves. -/
theorem trim_of_pads (bare : Bare core) (pads : Pads text core) : trim text = core := by
  obtain ⟨before, after, blankBefore, blankAfter, rfl⟩ := pads
  rw [trim, List.append_assoc, List.dropWhile_append_of_pos blankBefore]
  by_cases empty : core = []
  · subst empty
    have none : after.dropWhile isBlank = [] := List.dropWhile_eq_nil_iff.mpr blankAfter
    rw [List.nil_append, none]
    rfl
  · have front : (core ++ after).dropWhile isBlank = core ++ after := by
      apply dropWhile_isBlank
      rw [List.head?_append_of_ne_nil _ empty]
      exact bare.1
    have back : core.reverse.dropWhile isBlank = core.reverse := by
      apply dropWhile_isBlank
      rw [List.head?_reverse]
      exact bare.2
    rw [front, List.reverse_append, List.dropWhile_append_of_pos, back, List.reverse_reverse]
    exact fun character present => blankAfter character (List.mem_reverse.mp present)

theorem trim_eq_iff : trim text = core ↔ Bare core ∧ Pads text core := by
  constructor
  · rintro rfl
    exact ⟨bare_trim text, pads_trim text⟩
  · rintro ⟨bare, pads⟩
    exact trim_of_pads bare pads

/-! ### Numbers -/

/-- At least one decimal digit, after a plus sign or without one, for a number up to the bound. -/
def Numeral (bound number : Nat) (characters : List Char) : Prop :=
  ∃ digits, (characters = digits ∨ characters = '+' :: digits) ∧ digits ≠ [] ∧
    (∀ digit ∈ digits, digit.isDigit = true) ∧ number = Nat.ofDigitChars 10 digits 0 ∧
    number ≤ bound

theorem digit?_eq (character : Char) :
    digit? character = if character.isDigit then some (character.toNat - '0'.toNat) else none := by
  simp [digit?, Char.isDigit, Char.le_def, UInt32.le_iff_toNat_le]

theorem isBlank_of_isDigit {character : Char} (digit : character.isDigit = true) :
    isBlank character = false := by
  simp only [Char.isDigit, Bool.and_eq_true, decide_eq_true_eq, UInt32.le_iff_toNat_le] at digit
  have bounds : 48 ≤ character.toNat ∧ character.toNat ≤ 57 := digit
  simp only [isBlank, blankRanges, List.any_cons, List.any_nil, Bool.or_false, Bool.or_eq_false_iff,
    Bool.and_eq_false_iff, decide_eq_false_iff_not]
  omega

theorem Numeral.bare (numeral : Numeral bound number core) : Bare core := by
  obtain ⟨digits, spelled, -, decimal, -⟩ := numeral
  apply bare_of_forall
  intro character present
  rcases spelled with rfl | rfl
  · exact isBlank_of_isDigit (decimal character present)
  · rcases List.mem_cons.mp present with rfl | present
    · decide
    · exact isBlank_of_isDigit (decimal character present)

theorem mapM_digit? (characters : List Char) :
    characters.mapM digit? =
      if characters.all Char.isDigit then
        some (characters.map fun character => character.toNat - '0'.toNat)
      else none := by
  induction characters with
  | nil => rfl
  | cons character rest ih =>
      rw [List.mapM_cons, ih, digit?_eq, List.all_cons]
      cases character.isDigit
      · rfl
      · cases rest.all Char.isDigit <;> rfl

theorem value_eq (characters : List Char) :
    value 10 (characters.map fun character => character.toNat - '0'.toNat) =
      Nat.ofDigitChars 10 characters 0 := by
  simp only [value, valueAfter, Nat.ofDigitChars, List.foldl_map, Nat.mul_comm]

theorem digits?_eq_some_iff (characters : List Char) :
    digits? bound characters = some number ↔ characters ≠ [] ∧
      (∀ digit ∈ characters, digit.isDigit = true) ∧
      number = Nat.ofDigitChars 10 characters 0 ∧ number ≤ bound := by
  by_cases empty : characters = []
  · simp [digits?, empty]
  have nonempty : ¬ characters.isEmpty = true := mt List.isEmpty_iff.mp empty
  rw [digits?, if_neg nonempty, mapM_digit?, ← List.all_eq_true]
  cases characters.all Char.isDigit with
  | false => simp
  | true =>
      simp only [if_true, Option.bind_eq_bind, Option.bind_some, value_eq,
        Option.ite_none_right_eq_some, Option.some.injEq, ne_eq, empty, not_false_eq_true, true_and]
      constructor
      · rintro ⟨fits, rfl⟩
        exact ⟨rfl, fits⟩
      · rintro ⟨rfl, fits⟩
        exact ⟨fits, rfl⟩

theorem natural?_eq_some_iff (characters : List Char) :
    natural? bound characters = some number ↔ Numeral bound number characters := by
  unfold natural? Numeral
  split
  · rename_i digits
    rw [digits?_eq_some_iff]
    constructor
    · exact fun read => ⟨digits, Or.inr rfl, read⟩
    · rintro ⟨others, rfl | same, read⟩
      · have plus := read.2.1 '+' List.mem_cons_self
        cases plus
      · cases same
        exact read
  · rename_i unsigned
    rw [digits?_eq_some_iff]
    constructor
    · exact fun read => ⟨characters, Or.inl rfl, read⟩
    · rintro ⟨digits, rfl | signed, read⟩
      · exact read
      · exact absurd signed (unsigned digits)

/-- Every number up to the bound has a numeral without a sign. -/
theorem numeral_toDigits (fits : number ≤ bound) : Numeral bound number (Nat.toDigits 10 number) :=
  ⟨_, .inl rfl, Nat.toDigits_ne_nil,
    fun _ present => Nat.isDigit_of_mem_toDigits (by decide) (by decide) present,
    Nat.ofDigitChars_ten_toDigits.symm, fits⟩

end Leasehold.Text
