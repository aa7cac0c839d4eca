/-!
# Names in archives

The bytes of a name stand either for UTF-8 text or for characters of code page 437, one byte each.
Names need not be well formed, so both readings give a text for any bytes.

* `utf8Text` reads UTF-8 and puts the replacement character where the bytes fit no character.
* `codePageText` reads code page 437.
-/

set_option autoImplicit false

namespace DotMatrix.Archive

/-! ## UTF-8 -/

/-- A character of several bytes that has begun. -/
structure Begun where
  /-- What the bytes so far stand for. -/
  value : Nat
  /-- The number of bytes that are still missing. -/
  missing : Nat
  /-- The next byte is at least this one. -/
  least : UInt8
  /-- The next byte is at most this one. -/
  greatest : UInt8

/-- What stands for bytes that fit no character. -/
def replacement : Char := '\ufffd'

/-- What the first byte of a character says: the whole character, or the start of a longer one.  The
ranges leave out spellings that are longer than needed, surrogates and what lies beyond the last
character. -/
def firstByte (b : UInt8) : Char ⊕ Begun :=
  let low (mask : UInt8) := (b &&& mask).toNat
  if b < 0x80 then .inl (Char.ofNat b.toNat)
  else if b < 0xc2 then .inl replacement
  else if b < 0xe0 then .inr ⟨low 0x1f, 1, 0x80, 0xbf⟩
  else if b = 0xe0 then .inr ⟨low 0x0f, 2, 0xa0, 0xbf⟩
  else if b = 0xed then .inr ⟨low 0x0f, 2, 0x80, 0x9f⟩
  else if b < 0xf0 then .inr ⟨low 0x0f, 2, 0x80, 0xbf⟩
  else if b = 0xf0 then .inr ⟨low 0x07, 3, 0x90, 0xbf⟩
  else if b < 0xf4 then .inr ⟨low 0x07, 3, 0x80, 0xbf⟩
  else if b = 0xf4 then .inr ⟨low 0x07, 3, 0x80, 0x8f⟩
  else .inl replacement

/-- The characters of some bytes, after the start of a character that they may go on with.  As many
bytes as could begin a character share one replacement. -/
def utf8Characters : Option Begun → List UInt8 → List Char
  | none, [] => []
  | some _, [] => [replacement]
  | none, b :: rest =>
    match firstByte b with
    | .inl c => c :: utf8Characters none rest
    | .inr begun => utf8Characters (some begun) rest
  | some begun, b :: rest =>
    if begun.least ≤ b ∧ b ≤ begun.greatest then
      let value := 64 * begun.value + (b &&& 0x3f).toNat
      match begun.missing with
      | 0 | 1 => Char.ofNat value :: utf8Characters none rest
      | missing + 1 => utf8Characters (some ⟨value, missing, 0x80, 0xbf⟩) rest
    else
      replacement ::
        match firstByte b with
        | .inl c => c :: utf8Characters none rest
        | .inr begun => utf8Characters (some begun) rest

/-- Bytes read as UTF-8. -/
def utf8Text (bytes : ByteArray) : String :=
  String.ofList (utf8Characters none bytes.toList)

/-! ## Code page 437 -/

/-- The characters of code page 437 from 128 on. -/
def upperCodePage : Array Char :=
  ("ÇüéâäàåçêëèïîìÄÅÉæÆôöòûùÿÖÜ¢£¥₧ƒáíóúñÑªº¿⌐¬½¼¡«»" ++
    "░▒▓│┤╡╢╖╕╣║╗╝╜╛┐└┴┬├─┼╞╟╚╔╩╦╠═╬╧╨╤╥╙╘╒╓╫╪┘┌█▄▌▐▀" ++
    "αßΓπΣσµτΦΘΩδ∞φε∩≡±≥≤⌠⌡÷≈°∙·√ⁿ²■\u00a0").toList.toArray

/-- A character of code page 437. -/
def codePageCharacter (b : UInt8) : Char :=
  if b < 0x80 then Char.ofNat b.toNat else upperCodePage[b.toNat - 0x80]?.getD replacement

/-- Bytes read in code page 437. -/
def codePageText (bytes : ByteArray) : String :=
  String.ofList (bytes.toList.map codePageCharacter)

theorem utf8Characters_ascii {bytes : List UInt8} (h : ∀ b ∈ bytes, b < 0x80) :
    utf8Characters none bytes = bytes.map fun b ↦ Char.ofNat b.toNat := by
  induction bytes with
  | nil => rfl
  | cons b rest ih =>
    have hb : firstByte b = .inl (Char.ofNat b.toNat) := if_pos (h b (by simp))
    simp only [utf8Characters, hb, List.map_cons]
    rw [ih fun x hx ↦ h x (by simp [hx])]

theorem codePageCharacter_ascii {b : UInt8} (h : b < 0x80) :
    codePageCharacter b = Char.ofNat b.toNat := if_pos h

end DotMatrix.Archive
