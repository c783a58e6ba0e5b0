import Mathlib.Tactic.Common

namespace DeviceTrial

theorem toList_loop (b : ByteArray) (i : Nat) (r : List UInt8) :
    ByteArray.toList.loop b i r = r.reverse ++ b.data.toList.drop i := by
  fun_induction ByteArray.toList.loop b i r with
  | case1 i r hi ih =>
    have hi' : i < b.data.toList.length := hi
    have hget : b.get! i = b.data.toList[i] := by
      rw [Array.getElem_toList]
      exact getElem!_pos b.data i hi
    rw [ih, List.drop_eq_getElem_cons hi', hget]
    simp
  | case2 i r hi =>
    have hd : b.data.toList.drop i = [] := List.drop_eq_nil_of_le (Nat.le_of_not_lt hi)
    simp [hd]

theorem toList_eq_data (b : ByteArray) : b.toList = b.data.toList := by
  change ByteArray.toList.loop b 0 [] = b.data.toList
  rw [toList_loop]
  rfl

theorem toUTF8_toList (v : String) : v.toUTF8.toList = v.toByteArray.data.toList :=
  toList_eq_data _

theorem toUTF8_ofList (cs : List Char) :
    (String.ofList cs).toUTF8.toList = cs.flatMap String.utf8EncodeChar := by
  rw [toUTF8_toList, String.toByteArray_ofList]
  simp [List.utf8Encode]

theorem length_toUTF8 (v : String) : v.toUTF8.toList.length = v.utf8ByteSize := by
  rw [toUTF8_toList]
  rfl

theorem fromUTF8?_eq_some_iff (bytes : List UInt8) (v : String) :
    String.fromUTF8? (ByteArray.mk bytes.toArray) = some v ↔ v.toUTF8.toList = bytes := by
  rw [toUTF8_toList]
  unfold String.fromUTF8?
  split
  · rename_i h
    constructor
    · intro heq
      obtain rfl := Option.some.inj heq
      rfl
    · rintro rfl
      rfl
  · rename_i h
    refine ⟨fun heq => (Option.some_ne_none v heq.symm).elim, ?_⟩
    rintro rfl
    exact (h v.isValidUTF8).elim

end DeviceTrial
