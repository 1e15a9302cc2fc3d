import Mathlib.Data.List.TakeWhile
import WasmPackage.Text.Basic

/-!
# Runs of characters

A run is the longest beginning of a text whose characters all belong to a class.
-/

namespace WasmPackage

theorem take_takeWhile {α : Type} (p : α → Bool) (l : List α) :
    l.take (l.takeWhile p).length = l.takeWhile p :=
  (List.prefix_iff_eq_take.mp (List.takeWhile_prefix p)).symm

theorem drop_takeWhile {α : Type} (p : α → Bool) (l : List α) :
    l.drop (l.takeWhile p).length = l.dropWhile p := by
  have hsplit : l.takeWhile p ++ l.dropWhile p = l := List.takeWhile_append_dropWhile
  have hbehind := congrArg (List.drop (l.takeWhile p).length) hsplit
  rw [List.drop_left] at hbehind
  exact hbehind.symm

/-- What stands behind a run does not belong to it. -/
theorem any_head?_drop_takeWhile (p : Char → Bool) (r : Text) :
    (r.drop (r.takeWhile p).length).head?.any p = false := by
  have hhead := List.head?_dropWhile_not p r
  rw [drop_takeWhile]
  cases hdrop : r.dropWhile p with
  | nil => rfl
  | cons d s => simpa [hdrop] using hhead

/-- A run stops in front of a character that does not belong to it. -/
theorem takeWhile_append_of_head? {p : Char → Bool} {r r' : Text} (h : r'.head?.any p = false) :
    (r.takeWhile p ++ r').takeWhile p = r.takeWhile p := by
  have hnone : r'.takeWhile p = [] := by
    cases r' with
    | nil => rfl
    | cons d s => simpa using h
  rw [List.takeWhile_append_of_pos (fun d hd => List.mem_takeWhile_imp hd), hnone, List.append_nil]

end WasmPackage
