import WasmPackage.Text.Utf8

/-!
# Texts as bytes

A text that was written is read back as it was, and what was read is written back as it was.
-/

namespace WasmPackage.Text

theorem toList_loop (bytes : ByteArray) (i : Nat) (r : List UInt8) :
    ByteArray.toList.loop bytes i r = r.reverse ++ bytes.data.toList.drop i := by
  fun_induction ByteArray.toList.loop bytes i r with
  | case1 i r hi ih =>
    have hlength : i < bytes.data.toList.length := by simpa using hi
    have hget : bytes.get! i = bytes.data.toList[i] := by
      simp [ByteArray.get!, getElem!_pos, hi]
    rw [ih, List.drop_eq_getElem_cons hlength, hget]
    simp
  | case2 i r hi =>
    have hlength : bytes.data.toList.length ≤ i := by simpa using hi
    rw [List.drop_eq_nil_of_le hlength, List.append_nil]

theorem encode_eq (t : Text) : encode t = (String.ofList t).toUTF8.data.toList := by
  rw [encode, ByteArray.toList, toList_loop]
  simp

theorem encode_append (a b : Text) : encode (a ++ b) = encode a ++ encode b := by
  rw [encode_eq, encode_eq, encode_eq, String.ofList_append]
  simp

theorem encode_of_decode? {bytes : Bytes} {t : Text} (h : decode? bytes = some t) :
    encode t = bytes := by
  unfold decode? at h
  rcases Option.map_eq_some_iff.mp h with ⟨s, hs, rfl⟩
  rw [encode_eq, String.ofList_toList]
  unfold String.fromUTF8? at hs
  split at hs
  · cases hs
    rfl
  · cases hs

theorem decode?_encode (t : Text) : decode? (encode t) = some t := by
  have hbytes :
      ByteArray.mk (String.ofList t).toUTF8.toList.toArray = (String.ofList t).toUTF8 := by
    rw [ByteArray.toList, toList_loop]
    simp
  have hvalid : (String.ofList t).toUTF8.IsValidUTF8 := (String.ofList t).isValidUTF8
  have hread : String.fromUTF8? (String.ofList t).toUTF8 = some (String.ofList t) := by
    rw [String.fromUTF8?, dif_pos hvalid]
    rfl
  rw [decode?, encode, hbytes, hread, Option.map_some, String.toList_ofList]

end WasmPackage.Text
