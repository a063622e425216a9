import XdsClient.Library.History

/-! # Operations in flight

Some entries of a history start an operation and some complete one. `outstanding` counts the
operations that are in flight; whoever starts one only when none is in flight never has two.
-/
namespace XdsClient.Library

variable {ε : Type*} (isStart isDone : ε → Bool)

def outstanding : List ε → ℕ
  | [] => 0
  | e :: earlier =>
    outstanding earlier + (if isStart e then 1 else 0) - (if isDone e then 1 else 0)

variable {isStart isDone}

theorem outstanding_start {e : ε} (hstart : isStart e = true) (hdone : isDone e = false)
    (earlier : List ε) :
    outstanding isStart isDone (e :: earlier) = outstanding isStart isDone earlier + 1 := by
  simp [outstanding, hstart, hdone]

theorem outstanding_done {e : ε} (hstart : isStart e = false) (hdone : isDone e = true)
    (earlier : List ε) :
    outstanding isStart isDone (e :: earlier) = outstanding isStart isDone earlier - 1 := by
  simp [outstanding, hstart, hdone]

theorem outstanding_other {e : ε} (hstart : isStart e = false) (hdone : isDone e = false)
    (earlier : List ε) :
    outstanding isStart isDone (e :: earlier) = outstanding isStart isDone earlier := by
  simp [outstanding, hstart, hdone]

/-- One operation at a time. -/
theorem outstanding_le_one {history : List ε}
    (h : Always (fun e earlier => isStart e = true → outstanding isStart isDone earlier = 0) history) :
    outstanding isStart isDone history ≤ 1 := by
  induction history with
  | nil => simp [outstanding]
  | cons e earlier ih =>
    have hearlier := ih h.2
    cases hstart : isStart e with
    | true =>
      have hnone := h.1 hstart
      simp only [outstanding, hstart, if_true, hnone]
      omega
    | false =>
      simp only [outstanding, hstart, Bool.false_eq_true, if_false]
      omega

end XdsClient.Library
