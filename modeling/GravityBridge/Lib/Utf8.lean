import GravityBridge.Lib.ByteString

/-!
# Text in UTF-8

Which bytes are well-formed, and what is left of a text without the whitespace at
its ends. A character is read from its first byte, or from its last bytes when the
text is read backwards.
-/

namespace GravityBridge.Lib.Utf8

open Lib.ByteString

def within (low high byte : UInt8) : Bool := low ≤ byte && byte ≤ high

def continues : UInt8 → Bool := within 0x80 0xBF

def wellFormedTwo (first second : UInt8) : Bool := within 0xC2 0xDF first && continues second

/-- Without the longer forms of short characters and without surrogates. -/
def wellFormedThree (first second third : UInt8) : Bool :=
  continues third &&
    ((first == 0xE0 && within 0xA0 0xBF second) || (within 0xE1 0xEC first && continues second) ||
      (first == 0xED && within 0x80 0x9F second) || (within 0xEE 0xEF first && continues second))

def wellFormedFour (first second third fourth : UInt8) : Bool :=
  continues third && continues fourth &&
    ((first == 0xF0 && within 0x90 0xBF second) || (within 0xF1 0xF3 first && continues second) ||
      (first == 0xF4 && within 0x80 0x8F second))

def isUtf8 : Bytes → Bool
  | [] => true
  | first :: rest =>
      if first < 0x80 then isUtf8 rest
      else
        match rest with
        | [] => false
        | second :: rest =>
            if wellFormedTwo first second then isUtf8 rest
            else
              match rest with
              | [] => false
              | third :: rest =>
                  if wellFormedThree first second third then isUtf8 rest
                  else
                    match rest with
                    | [] => false
                    | fourth :: rest => wellFormedFour first second third fourth && isUtf8 rest

theorem isUtf8_of_ascii {text : Bytes} (single : ∀ byte ∈ text, byte < 0x80) :
    isUtf8 text = true := by
  induction text with
  | nil => rfl
  | cons byte rest ih =>
    unfold isUtf8
    rw [if_pos (single byte List.mem_cons_self)]
    exact ih fun other member => single other (List.mem_cons_of_mem _ member)

/-! ## Whitespace -/

def spaceOne (byte : UInt8) : Bool := within 0x09 0x0D byte || byte == 0x20

def spaceTwo (first second : UInt8) : Bool := first == 0xC2 && (second == 0x85 || second == 0xA0)

def spaceThree (first second third : UInt8) : Bool :=
  (first == 0xE1 && second == 0x9A && third == 0x80) ||
    (first == 0xE2 && second == 0x80 &&
      (within 0x80 0x8A third || third == 0xA8 || third == 0xA9 || third == 0xAF)) ||
    (first == 0xE2 && second == 0x81 && third == 0x9F) ||
      (first == 0xE3 && second == 0x80 && third == 0x80)

def trimStart : Bytes → Bytes
  | [] => []
  | first :: rest =>
      if spaceOne first then trimStart rest
      else
        match rest with
        | [] => [first]
        | second :: rest =>
            if spaceTwo first second then trimStart rest
            else
              match rest with
              | [] => [first, second]
              | third :: rest =>
                  if spaceThree first second third then trimStart rest
                    else first :: second :: third :: rest

/-- The same from the end, on the bytes in reverse. -/
def trimReversed : Bytes → Bytes
  | [] => []
  | last :: rest =>
      if spaceOne last then trimReversed rest
      else
        match rest with
        | [] => [last]
        | second :: rest =>
            if spaceTwo second last then trimReversed rest
            else
              match rest with
              | [] => [last, second]
              | third :: rest =>
                  if spaceThree third second last then trimReversed rest
                    else last :: second :: third :: rest

def trim (text : Bytes) : Bytes := (trimReversed (trimStart text).reverse).reverse

end GravityBridge.Lib.Utf8
