/-
# Parts of a text at byte offsets

Offsets in guard text count bytes of UTF-8.  Not every offset is one between two characters, and
only between such offsets is there a part of the text to be taken out (`Text.slice?`).  `HasAt`
says that a text has a part at an offset; then the offset is between characters and the part can
be taken out there.
-/
import Mathlib.Data.String.Basic
import GuardedMachine.Statement.Token

namespace GuardedMachine

lemma byteLength_eq_utf8Len (cs : List Char) : byteLength cs = String.utf8Len cs := by
  induction cs with
  | nil => rfl
  | cons c cs ih => rw [byteLength, String.utf8Len_cons, ih, Nat.add_comm]

/-- Bytes are counted as strings count them. -/
lemma byteLength_toList (s : String) : byteLength s.toList = s.utf8ByteSize := by
  rw [byteLength_eq_utf8Len, ← String.utf8ByteSize_ofList, String.ofList_toList]

namespace Text

/-- The text has a part at a byte offset. -/
def HasAt (text : String) (offset : ℕ) (part : String) : Prop :=
  ∃ before after, text = before ++ (part ++ after) ∧ before.utf8ByteSize = offset

/-- The part of a text from one byte offset up to another; none if they are not in order, or if
one of them is beyond the end of the text or within a character. -/
def slice? (text : String) (start stop : ℕ) : Option String :=
  if h : start ≤ stop ∧
      String.Pos.Raw.IsValid text ⟨start⟩ ∧ String.Pos.Raw.IsValid text ⟨stop⟩ then
    some (String.extract ⟨⟨start⟩, h.2.1⟩ ⟨⟨stop⟩, h.2.2⟩)
  else
    none

variable {text part : String} {offset : ℕ}

lemma hasAt_of_toList {before after : List Char}
    (h : text.toList = before ++ (part.toList ++ after)) : HasAt text (byteLength before) part := by
  refine ⟨String.ofList before, String.ofList after, ?_, ?_⟩
  · rw [← String.toList_inj, h]
    simp
  · rw [← byteLength_toList, String.toList_ofList]

lemma hasAt_of_prefix {before part cs : List Char} (htext : text.toList = before ++ cs)
    (hpart : part <+: cs) : HasAt text (byteLength before) (String.ofList part) := by
  obtain ⟨after, rfl⟩ := hpart
  exact @hasAt_of_toList _ _ before after (by rw [htext, String.toList_ofList])

namespace HasAt

/-- An offset at which the text has a part is between two characters. -/
lemma isValid (h : HasAt text offset part) : String.Pos.Raw.IsValid text ⟨offset⟩ := by
  obtain ⟨before, after, htext, rfl⟩ := h
  exact String.Pos.Raw.isValid_iff_exists_append.2 ⟨before, part ++ after, htext, rfl⟩

/-- So is the offset at which the part ends. -/
lemma isValid_end (h : HasAt text offset part) :
    String.Pos.Raw.IsValid text ⟨offset + part.utf8ByteSize⟩ := by
  obtain ⟨before, after, htext, rfl⟩ := h
  rw [← String.append_assoc] at htext
  refine String.Pos.Raw.isValid_iff_exists_append.2 ⟨before ++ part, after, htext, ?_⟩
  rw [← String.utf8ByteSize_append]
  rfl

lemma le_utf8ByteSize (h : HasAt text offset part) : offset ≤ text.utf8ByteSize :=
  h.isValid.le_utf8ByteSize

/-- What the text has at an offset can be taken out there. -/
lemma slice?_eq (h : HasAt text offset part) :
    slice? text offset (offset + part.utf8ByteSize) = some part := by
  have hvalid : offset ≤ offset + part.utf8ByteSize ∧ String.Pos.Raw.IsValid text ⟨offset⟩ ∧
      String.Pos.Raw.IsValid text ⟨offset + part.utf8ByteSize⟩ :=
    ⟨Nat.le_add_right _ _, h.isValid, h.isValid_end⟩
  obtain ⟨before, after, htext, hoffset⟩ := h
  let first : text.Pos := ⟨⟨offset⟩, hvalid.2.1⟩
  let last : text.Pos := ⟨⟨offset + part.utf8ByteSize⟩, hvalid.2.2⟩
  have hfirst : first.Splits before (part ++ after) := ⟨htext, congrArg _ hoffset.symm⟩
  have hlast : last.Splits (before ++ part) after := by
    refine ⟨by rw [htext, String.append_assoc], ?_⟩
    have hbytes : offset + part.utf8ByteSize = (before ++ part).utf8ByteSize := by
      rw [String.utf8ByteSize_append, hoffset]
    exact congrArg _ hbytes
  obtain ⟨hle, hcopy⟩ := String.copy_slice_eq_iff_splits.2 ⟨before, after, hfirst, hlast⟩
  have hextract : String.extract first last = part :=
    (String.extract_eq_copy_slice first last hle).trans hcopy
  rw [slice?, dif_pos hvalid]
  exact congrArg some hextract

end HasAt

end Text

end GuardedMachine
