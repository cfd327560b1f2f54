import Mathlib

/-! # Runs of consecutive integers

A counter that is taken `count` times from `start` on: the list form of a half-open
interval, with the two ways in which a loop builds it, from the front and in parts. -/

namespace Taf.Lib

/-- `start`, `start + 1`, and so on, `count` of them. -/
def window (start : Int) (count : Nat) : List Int :=
  (List.range count).map fun offset : Nat => start + offset

variable {start : Int} {count : Nat}

@[simp] theorem window_zero (start : Int) : window start 0 = [] := rfl

theorem window_succ (start : Int) (count : Nat) :
    window start (count + 1) = start :: window (start + 1) count := by
  simp only [window, List.range_succ_eq_map, List.map_cons, List.map_map]
  refine List.cons_eq_cons.mpr ⟨by simp, List.map_congr_left ?_⟩
  intro offset _
  simp only [Function.comp_apply]
  omega

@[simp] theorem window_one (start : Int) : window start 1 = [start] := by
  simp [window]

@[simp] theorem length_window (start : Int) (count : Nat) : (window start count).length = count := by
  simp [window]

theorem window_append (start : Int) (first second : Nat) :
    window start first ++ window (start + first) second = window start (first + second) := by
  induction first generalizing start with
  | zero => simp
  | succ first ih =>
    have shifted : start + ((first + 1 : Nat) : Int) = start + 1 + first := by omega
    rw [Nat.add_right_comm, window_succ, window_succ, List.cons_append, shifted, ih]

/-- Windows of one length behind each other are one window. -/
theorem flatMap_window (start : Int) (step count : Nat) :
    (List.range count).flatMap (fun k : Nat => window (start + step * k) step) = window start (step * count) := by
  induction count with
  | zero => rfl
  | succ count ih =>
    rw [List.range_succ, List.flatMap_append, ih, List.flatMap_singleton]
    exact window_append start (step * count) step

theorem mem_window {index : Int} :
    index ∈ window start count ↔ start ≤ index ∧ index < start + count := by
  simp only [window, List.mem_map, List.mem_range]
  constructor
  · intro ⟨offset, bound, same⟩
    omega
  · intro ⟨low, high⟩
    exact ⟨(index - start).toNat, by omega, by omega⟩

end Taf.Lib
