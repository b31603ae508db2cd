set_option autoImplicit false

/-! Text as bytes, and bytes shown as text. Where bytes are no UTF-8, each longest beginning of a
character that does not go on is shown as one replacement character. -/

namespace Leasehold

abbrev Bytes := List UInt8

namespace Text

/-- Where a decoder stands: between characters, or inside one with bytes still to come, the bounds of
the next byte, and the bits so far. -/
inductive Utf8State where
  | between
  | inside (missing least greatest bits : Nat)
  deriving DecidableEq, Repr

namespace Utf8State

def replacement : Char := '\uFFFD'

def lead (byte : Nat) : List Char × Utf8State :=
  if byte < 0x80 then ([Char.ofNat byte], between)
  else if byte < 0xc2 then ([replacement], between)
  else if byte < 0xe0 then ([], inside 1 0x80 0xbf (byte - 0xc0))
  else if byte = 0xe0 then ([], inside 2 0xa0 0xbf 0)
  else if byte = 0xed then ([], inside 2 0x80 0x9f 0xd)
  else if byte < 0xf0 then ([], inside 2 0x80 0xbf (byte - 0xe0))
  else if byte = 0xf0 then ([], inside 3 0x90 0xbf 0)
  else if byte < 0xf4 then ([], inside 3 0x80 0xbf (byte - 0xf0))
  else if byte = 0xf4 then ([], inside 3 0x80 0x8f 4)
  else ([replacement], between)

def step (state : Utf8State) (byte : Nat) : List Char × Utf8State :=
  match state with
  | between => lead byte
  | inside missing least greatest bits =>
      if least ≤ byte ∧ byte ≤ greatest then
        let bits := bits * 64 + (byte - 0x80)
        if missing ≤ 1 then ([Char.ofNat bits], between) else ([], inside (missing - 1) 0x80 0xbf bits)
      else
        let (characters, state) := lead byte
        (replacement :: characters, state)

def finish : Utf8State → List Char
  | between => []
  | inside _ _ _ _ => [replacement]

def decode (state : Utf8State) : Bytes → List Char
  | [] => state.finish
  | byte :: rest =>
      let (characters, state) := state.step byte.toNat
      characters ++ decode state rest

end Utf8State

def shownBytes (bytes : Bytes) : String := String.ofList (Utf8State.between.decode bytes)

def encode (text : String) : Bytes := text.toUTF8.data.toList

def text? (bytes : Bytes) : Option String := String.fromUTF8? ⟨bytes.toArray⟩

theorem text?_encode (text : String) : text? (encode text) = some text := by
  have whole : (⟨(encode text).toArray⟩ : ByteArray) = text.toUTF8 := rfl
  simp only [text?, whole, String.fromUTF8?]
  exact dif_pos text.isValidUTF8

theorem encode_inj {left right : String} : encode left = encode right ↔ left = right := by
  constructor
  · intro same
    have read : some left = some right := by rw [← text?_encode, same, text?_encode]
    exact Option.some.inj read
  · rintro rfl; rfl

end Text

end Leasehold
