/-
Texts as bytes: `byteLength` measures the UTF-8 encoding
(`size_utf8Encode`), and a cut between characters is a cut between bytes.
The part of a text behind some other part starts on a character boundary,
and its encoding is the slice of the bytes there.
-/
import ComponentMarkdown.Text.Basic

namespace ComponentMarkdown.Text

/-- Whether a byte offset lies between two characters of the text, or at
one of its ends. -/
def IsBoundary (t : Text) (offset : Nat) : Prop :=
  (⟨offset⟩ : String.Pos.Raw).IsValid (String.ofList t)

/-- A text is as long in bytes as its encoding. -/
theorem size_utf8Encode (t : Text) : t.utf8Encode.size = t.byteLength := by
  induction t with
  | nil => rfl
  | cons c t ih =>
    rw [List.utf8Encode_cons, ByteArray.size_append, ih,
      List.utf8Encode_singleton, byteLength_cons]
    simp

/-- A text that is not empty takes some bytes. -/
theorem byteLength_pos {t : Text} (h : t ≠ []) : 0 < t.byteLength := by
  obtain ⟨c, rest, rfl⟩ := List.exists_cons_of_ne_nil h
  have hc := c.utf8Size_pos
  rw [byteLength_cons]
  omega

/-- Every part of a text ends on a boundary. -/
theorem isBoundary_byteLength (a b : Text) :
    IsBoundary (a ++ b) a.byteLength := by
  unfold IsBoundary
  rw [String.Pos.Raw.isValid_iff_exists_append]
  refine ⟨String.ofList a, String.ofList b, String.ofList_append, ?_⟩
  rw [String.Pos.Raw.ext_iff, ← size_utf8Encode, ← String.toByteArray_ofList]
  rfl

/-- A part of a text is the slice of the bytes it covers. -/
theorem extract_utf8Encode (a b c : Text) :
    (a ++ b ++ c).utf8Encode.extract a.byteLength
      (a.byteLength + b.byteLength) = b.utf8Encode := by
  rw [List.append_assoc, List.utf8Encode_append, ← size_utf8Encode a]
  rw [show a.utf8Encode.size = a.utf8Encode.size + 0 from rfl,
    Nat.add_assoc, Nat.zero_add, ByteArray.extract_append_size_add,
    List.utf8Encode_append, ← size_utf8Encode b]
  exact ByteArray.extract_append_eq_left rfl

/-- A cut at the end of a part leaves what follows it. -/
theorem dropBytes_append (a b : Text) :
    dropBytes (byteLength a) (a ++ b) = b := by
  have h := takeBytes_append_dropBytes (byteLength a) (a ++ b)
  rw [takeBytes_append] at h
  exact List.append_cancel_left h

end ComponentMarkdown.Text
