import CreateIndex.Input

/-!
# Encoders

The bytes that a text has in each of the encodings that a file may be in.  Every decoder that
gives a text at all is undone by its encoder, so it has neither lost nor replaced a byte.
-/

namespace CreateIndex

namespace Encoding

open Text

variable {order : ByteOrder} {bytes : List UInt8} {units : List Nat} {text : List Char} {c : Char}
  {unit leading trailing : Nat}

/-! ## UTF-16 -/

/-- The code units of a character: its code point, or a pair of surrogates. -/
def charUnits (c : Char) : List Nat :=
  if c.toNat < 0x10000 then [c.toNat]
  else [0xD800 + (c.toNat - 0x10000) / 0x400, 0xDC00 + (c.toNat - 0x10000) % 0x400]

def ByteOrder.split (order : ByteOrder) (unit : Nat) : List UInt8 :=
  match order with
  | .little => [UInt8.ofNat unit, UInt8.ofNat (unit / 0x100)]
  | .big => [UInt8.ofNat (unit / 0x100), UInt8.ofNat unit]

def encodeUtf16 (order : ByteOrder) (text : List Char) : List UInt8 :=
  (text.flatMap charUnits).flatMap order.split

theorem ByteOrder.split_join (order : ByteOrder) (first second : UInt8) :
    order.split (order.join first second) = [first, second] := by
  have hhigh (low high : UInt8) :
      UInt8.ofNat ((low.toNat + 0x100 * high.toNat) / 0x100) = high := by
    have hlow := low.toNat_lt
    have hdiv : (low.toNat + 0x100 * high.toNat) / 0x100 = high.toNat := by omega
    rw [hdiv, UInt8.ofNat_toNat]
  cases order with
  | little => simp [split, join, hhigh]
  | big => simp [split, join, Nat.add_comm _ second.toNat, hhigh]

theorem ByteOrder.join_lt (order : ByteOrder) (first second : UInt8) :
    order.join first second < 0x10000 := by
  have hfirst := first.toNat_lt
  have hsecond := second.toNat_lt
  cases order <;> simp only [join] <;> omega

/-- No byte is lost on the way to code units, in either order: the bytes can be
had back from them. -/
theorem split_of_codeUnits? (hunits : codeUnits? order bytes = some units) :
    units.flatMap order.split = bytes := by
  fun_induction codeUnits? order bytes generalizing units with
  | case1 =>
      cases hunits
      rfl
  | case2 => cases hunits
  | case3 first second rest ih =>
      obtain ⟨more, hmore, rfl⟩ := Option.map_eq_some_iff.mp hunits
      rw [List.flatMap_cons, order.split_join, ih hmore]
      rfl

theorem lt_of_codeUnits? (hunits : codeUnits? order bytes = some units) :
    ∀ unit ∈ units, unit < 0x10000 := by
  fun_induction codeUnits? order bytes generalizing units with
  | case1 =>
      cases hunits
      simp
  | case2 => cases hunits
  | case3 first second rest ih =>
      obtain ⟨more, hmore, rfl⟩ := Option.map_eq_some_iff.mp hunits
      exact List.forall_mem_cons.mpr ⟨order.join_lt first second, ih hmore⟩

theorem toNat_ofNat_of_isValidChar {code : Nat} (hvalid : code.isValidChar) :
    (Char.ofNat code).toNat = code := by
  rw [Char.ofNat, dif_pos hvalid]
  rfl

theorem charUnits_of_charOfCode? (hlt : unit < 0x10000) (hchar : charOfCode? unit = some c) :
    charUnits c = [unit] := by
  rw [charOfCode?] at hchar
  split at hchar
  · cases hchar
    rw [charUnits, toNat_ofNat_of_isValidChar ‹_›, if_pos hlt]
  · cases hchar

/-- A pair of surrogates makes a character that is encoded as this pair. -/
theorem charUnits_joinSurrogates (hleading : isLeadingSurrogate leading)
    (htrailing : isTrailingSurrogate trailing) :
    charUnits (joinSurrogates leading trailing) = [leading, trailing] := by
  simp only [isLeadingSurrogate, isTrailingSurrogate, Bool.and_eq_true, decide_eq_true_eq]
    at hleading htrailing
  have hvalid : (0x10000 + (leading - 0xD800) * 0x400 + (trailing - 0xDC00)).isValidChar :=
    Or.inr (by omega)
  rw [joinSurrogates, charUnits, toNat_ofNat_of_isValidChar hvalid, if_neg (by omega),
    List.cons.injEq, List.cons.injEq]
  exact ⟨by omega, by omega, rfl⟩

/-- Code units that make a text are the units of its characters.  A surrogate
without its partner makes no text. -/
theorem charUnits_of_ofCodeUnits? (hlt : ∀ unit ∈ units, unit < 0x10000)
    (htext : ofCodeUnits? units = some text) : text.flatMap charUnits = units := by
  fun_induction ofCodeUnits? units generalizing text with
  | case1 =>
      cases htext
      rfl
  | case2 unit =>
      obtain ⟨c, hc, rfl⟩ := Option.map_eq_some_iff.mp htext
      simp [charUnits_of_charOfCode? (hlt unit (by simp)) hc]
  | case3 unit next rest hleading htrailing ih =>
      obtain ⟨more, hmore, rfl⟩ := Option.map_eq_some_iff.mp htext
      have hrest := ih (fun unit hunit => hlt unit (by simp [hunit])) hmore
      rw [List.flatMap_cons, charUnits_joinSurrogates hleading htrailing, hrest]
      rfl
  | case4 => cases htext
  | case5 unit next rest _ c hc ih =>
      obtain ⟨more, hmore, rfl⟩ := Option.map_eq_some_iff.mp htext
      have hrest := ih (fun unit hunit => hlt unit (List.mem_cons_of_mem _ hunit)) hmore
      rw [List.flatMap_cons, charUnits_of_charOfCode? (hlt unit (by simp)) hc, hrest]
      rfl
  | case6 => cases htext

/-- Decoding from UTF-16 is undone by encoding: each text comes from one
sequence of bytes only. -/
theorem encodeUtf16_of_decodeUtf16? (htext : decodeUtf16? order bytes = some text) :
    encodeUtf16 order text = bytes := by
  obtain ⟨units, hunits, hchars⟩ := Option.bind_eq_some_iff.mp htext
  rw [encodeUtf16, charUnits_of_ofCodeUnits? (lt_of_codeUnits? hunits) hchars,
    split_of_codeUnits? hunits]

/-! ## Windows-1252 -/

def windows1252Byte? (c : Char) : Option UInt8 :=
  if c.toNat < 0x80 ∨ 0xA0 ≤ c.toNat ∧ c.toNat < 0x100 then some (UInt8.ofNat c.toNat)
  else (windows1252Table.idxOf? c.toNat).map fun place => UInt8.ofNat (0x80 + place)

def encodeWindows1252? (text : List Char) : Option (List UInt8) :=
  text.mapM windows1252Byte?

/-- The 256 bytes stand for 256 different characters, those without an assigned
one for control characters. -/
theorem windows1252Byte?_windows1252Char (byte : UInt8) :
    windows1252Byte? (windows1252Char byte) = some byte := by
  have hall : ∀ code < 0x100,
      windows1252Byte? (windows1252Char (UInt8.ofNat code)) = some (UInt8.ofNat code) := by
    decide +kernel
  have hbyte := hall byte.toNat byte.toNat_lt
  rwa [UInt8.ofNat_toNat] at hbyte

/-- Any bytes at all can be had back from the text that they are decoded into. -/
theorem encodeWindows1252?_decodeWindows1252 (bytes : List UInt8) :
    encodeWindows1252? (decodeWindows1252 bytes) = some bytes := by
  rw [encodeWindows1252?, decodeWindows1252]
  induction bytes with
  | nil => rfl
  | cons byte bytes ih =>
      rw [List.map_cons, List.mapM_cons, windows1252Byte?_windows1252Char, ih]
      rfl

end Encoding

/-! ## Encodings -/

inductive Encoding where
  | utf8
  | utf16 (order : Encoding.ByteOrder)
  | windows1252

/-- The bytes of a text in an encoding, if each of its characters has some. -/
def Encoding.encode? (encoding : Encoding) (text : List Char) : Option (List UInt8) :=
  match encoding with
  | .utf8 => some (String.ofList text).toUTF8.data.toList
  | .utf16 order => some (encodeUtf16 order text)
  | .windows1252 => encodeWindows1252? text

end CreateIndex
