import CreateIndex.Proofs.Input.Encoders
import CreateIndex.Proofs.Input.Routes
import Mathlib.Tactic.ByContra

/-!
# What is read from a file

A file that can be read loses a byte order mark and a line break at its end, and nothing else:
with these put back, the text has the bytes of the file in one of the encodings.  Bytes that
look like no other encoding are one character each, so they can always be read.
-/

namespace CreateIndex

open Encoding

variable {bytes : ByteArray} {listed mark : List UInt8} {text : List Char}

/-! ## What is dropped -/

/-- What is dropped from the front of a text is one byte order mark at the most. -/
theorem exists_mark (text : List Char) :
    ∃ mark, IsOrderMark mark ∧ mark ++ dropMark text = text := by
  unfold dropMark
  split
  · exact ⟨_, .byteOrder, rfl⟩
  · exact ⟨_, .none, rfl⟩

/-- What is dropped from the end of a text is one line break at the most. -/
theorem exists_lineBreak (text : List Char) :
    ∃ ending, IsLineBreak ending ∧ dropLineBreak text ++ ending = text := by
  have hback {start ending : List Char} (hreverse : text.reverse = ending.reverse ++ start) :
      start.reverse ++ ending = text := by
    simpa using (congrArg List.reverse hreverse).symm
  unfold dropLineBreak
  split
  · exact ⟨_, .returnFeed, hback ‹_›⟩
  · exact ⟨_, .feed, hback ‹_›⟩
  · exact ⟨_, .none, List.append_nil text⟩

/-! ## Decoding -/

theorem toUTF8_of_fromUTF8? {text : String} (htext : String.fromUTF8? bytes = some text) :
    text.toUTF8 = bytes := by
  unfold String.fromUTF8? at htext
  split at htext
  · cases htext
    rfl
  · cases htext

theorem fromUTF8?_eq_none (hinvalid : ¬bytes.IsValidUTF8) : String.fromUTF8? bytes = none :=
  dif_neg hinvalid

namespace Encoding

def orderMarks : List (List UInt8) :=
  [[0xEF, 0xBB, 0xBF], [0xFF, 0xFE], [0xFE, 0xFF]]

/-- A mark in front of a text in UTF-16 is what its bytes start with. -/
theorem encode?_utf16_mark {order : ByteOrder} (htext : decodeUtf16? order listed = some text) :
    (utf16 order).encode? ('\ufeff' :: text) = some (encodeUtf16 order ['\ufeff'] ++ listed) := by
  rw [← encodeUtf16_of_decodeUtf16? htext]
  simp [encode?, encodeUtf16]

/-- Bytes that are no UTF-8 are decoded into a text that has those bytes, in the
encoding that their mark announces or else in Windows-1252. -/
theorem encode?_of_decodeOther? (htext : decodeOther? listed = some text) :
    ∃ encoding : Encoding, ∃ mark, IsOrderMark mark ∧
      encoding.encode? (mark ++ text) = some listed := by
  unfold decodeOther? at htext
  split at htext
  · cases htext
  · exact ⟨.utf16 .little, _, .byteOrder, encode?_utf16_mark htext⟩
  · exact ⟨.utf16 .big, _, .byteOrder, encode?_utf16_mark htext⟩
  · cases htext
    exact ⟨.windows1252, _, .none, encodeWindows1252?_decodeWindows1252 _⟩

/-- Without a mark there is nothing to announce UTF-16, and the bytes are
decoded one by one. -/
theorem decodeOther?_of_unmarked (hunmarked : ∀ mark ∈ orderMarks, ¬mark <+: listed) :
    decodeOther? listed = some (decodeWindows1252 listed) := by
  unfold decodeOther?
  split
  · exact absurd (List.prefix_append _ _) (hunmarked [0xEF, 0xBB, 0xBF] (by decide))
  · exact absurd (List.prefix_append _ _) (hunmarked [0xFF, 0xFE] (by decide))
  · exact absurd (List.prefix_append _ _) (hunmarked [0xFE, 0xFF] (by decide))
  · rfl

/-- Whatever a file is decoded into has the bytes of the file, up to a mark that
was dropped. -/
theorem encode?_of_decodeFile? (htext : decodeFile? bytes = some text) :
    ∃ encoding : Encoding, ∃ mark, IsOrderMark mark ∧
      encoding.encode? (mark ++ text) = some bytes.data.toList := by
  unfold decodeFile? at htext
  split at htext
  · rename_i decoded hdecoded
    cases htext
    obtain ⟨mark, hmark, hdropped⟩ := exists_mark decoded.toList
    refine ⟨.utf8, mark, hmark, ?_⟩
    rw [hdropped, encode?, String.ofList_toList, toUTF8_of_fromUTF8? hdecoded]
  · exact encode?_of_decodeOther? htext

/-- Only two things together keep a file from being decoded: it is no UTF-8, and
it starts with the mark of an encoding. -/
theorem decodeFile?_eq_none (hnone : decodeFile? bytes = none) :
    ¬bytes.IsValidUTF8 ∧ ∃ mark ∈ orderMarks, mark <+: bytes.data.toList := by
  constructor
  · intro hvalid
    rw [decodeFile?, String.fromUTF8?, dif_pos hvalid] at hnone
    cases hnone
  · by_contra hunmarked
    have hother := decodeOther?_of_unmarked fun mark hmark hstart =>
      hunmarked ⟨mark, hmark, hstart⟩
    unfold decodeFile? at hnone
    split at hnone
    · cases hnone
    · rw [hother] at hnone
      cases hnone

end Encoding

/-! ## Files -/

/-- The bytes are those of the text in one of the encodings, with what a file may add to it. -/
def FileHolds (bytes : ByteArray) (text : String) : Prop :=
  ∃ encoding : Encoding, ∃ mark ending, IsOrderMark mark ∧ IsLineBreak ending ∧
    encoding.encode? (mark ++ (text.toList ++ ending)) = some bytes.data.toList

variable {environment : Environment} {path : String}

theorem Source.read_file_of_decodeFile? (hfile : environment.file path = some bytes)
    (htext : decodeFile? bytes = some text) :
    (Source.file path).read environment = .ok (String.ofList (dropLineBreak text)) := by
  simp only [Source.read, fileText, hfile, htext]
  rfl

/-- A file is read as a text that it holds, unless it has the mark of an encoding whose rules it
breaks.  Bytes that are neither UTF-8 nor marked are read one by one. -/
theorem Source.read_file_holds (hfile : environment.file path = some bytes) :
    ((Source.file path).read environment = .error (.unreadableFile path .undecodable) ∧
          ¬bytes.IsValidUTF8 ∧ (∃ mark ∈ orderMarks, mark <+: bytes.data.toList) ∨
        ∃ text, (Source.file path).read environment = .ok text ∧ FileHolds bytes text) ∧
      (¬bytes.IsValidUTF8 → (∀ mark ∈ orderMarks, ¬mark <+: bytes.data.toList) →
        ∃ text ending, (Source.file path).read environment = .ok text ∧ IsLineBreak ending ∧
          encodeWindows1252? (text.toList ++ ending) = some bytes.data.toList ∧
          (text.toList ++ ending).length = bytes.size) := by
  constructor
  · cases htext : decodeFile? bytes with
    | none =>
        refine Or.inl ⟨?_, decodeFile?_eq_none htext⟩
        simp only [Source.read, fileText, hfile, htext]
        rfl
    | some text =>
        right
        obtain ⟨encoding, mark, hmark, hencode⟩ := encode?_of_decodeFile? htext
        obtain ⟨ending, hending, hdropped⟩ := exists_lineBreak text
        refine ⟨_, Source.read_file_of_decodeFile? hfile htext, encoding, mark, ending, hmark,
          hending, ?_⟩
        rwa [String.toList_ofList, hdropped]
  · intro hinvalid hunmarked
    have htext : decodeFile? bytes = some (decodeWindows1252 bytes.data.toList) := by
      rw [decodeFile?, fromUTF8?_eq_none hinvalid]
      exact decodeOther?_of_unmarked hunmarked
    obtain ⟨ending, hending, hdropped⟩ := exists_lineBreak (decodeWindows1252 bytes.data.toList)
    refine ⟨_, ending, Source.read_file_of_decodeFile? hfile htext, hending, ?_⟩
    rw [String.toList_ofList, hdropped]
    exact ⟨encodeWindows1252?_decodeWindows1252 _, List.length_map _⟩

/-- A file that starts with a euro sign in Windows-1252 and ends with a line break. -/
def euroEnvironment : Environment where
  file _ := some ⟨#[0x80, 0xE9, 0x20, 0x81, 0x0D, 0x0A]⟩

theorem read_file_holds_euro :
    (euroEnvironment.file "old.sql" = some ⟨#[0x80, 0xE9, 0x20, 0x81, 0x0D, 0x0A]⟩ ∧
      ¬(ByteArray.mk #[0x80, 0xE9, 0x20, 0x81, 0x0D, 0x0A]).IsValidUTF8 ∧
      ∀ mark ∈ orderMarks, ¬mark <+: [0x80, 0xE9, 0x20, 0x81, 0x0D, 0x0A]) ∧
    ∃ text ending, (Source.file "old.sql").read euroEnvironment = .ok text ∧
      IsLineBreak ending ∧
      encodeWindows1252? (text.toList ++ ending) =
        some [0x80, 0xE9, 0x20, 0x81, 0x0D, 0x0A] ∧
      (text.toList ++ ending).length = 6 := by
  have hfile : euroEnvironment.file "old.sql" =
      some ⟨#[0x80, 0xE9, 0x20, 0x81, 0x0D, 0x0A]⟩ := rfl
  have hinvalid : ¬(ByteArray.mk #[0x80, 0xE9, 0x20, 0x81, 0x0D, 0x0A]).IsValidUTF8 := by
    rw [← ByteArray.validateUTF8_eq_false_iff]
    decide +kernel
  have hunmarked : ∀ mark ∈ orderMarks, ¬mark <+: [0x80, 0xE9, 0x20, 0x81, 0x0D, 0x0A] := by
    decide
  exact ⟨⟨hfile, hinvalid, hunmarked⟩, (Source.read_file_holds hfile).2 hinvalid hunmarked⟩

end CreateIndex
