import PmTiny.Lib.Ring

namespace PmTiny
set_option autoImplicit true

def formatProgramExitEvent (name : String) (pid : Int) (reason : String) (code : Int) : String :=
  String.join ["[pm_tiny] process `", name, "` exited: pid=", toString pid, " reason=", reason,
    " code=", toString code, "\n"]

/-- `bounded_log_tail`: the last output of a generation, kept in a ring. -/
structure BoundedLogTail where
  capacity : Nat := 64 * 1024
  storage : Nat → UInt8 := fun _ => 0
  start : Nat := 0
  size : Nat := 0
  totalBytes : Nat := 0

namespace BoundedLogTail

def beginOffset (tail : BoundedLogTail) : Nat := tail.totalBytes - tail.size

def clear (tail : BoundedLogTail) : BoundedLogTail :=
  { tail with start := 0, size := 0, totalBytes := 0 }

def append (tail : BoundedLogTail) (data : List UInt8) : BoundedLogTail :=
  if data.length = 0 then tail
  else
    let tail := { tail with totalBytes := tail.totalBytes + data.length }
    if tail.capacity = 0 then tail
    else if data.length ≥ tail.capacity then
      { tail with
        storage := Ring.store tail.storage tail.capacity 0
          (data.drop (data.length - tail.capacity))
        start := 0
        size := tail.capacity }
    else
      let overflow :=
        if tail.size + data.length > tail.capacity then tail.size + data.length - tail.capacity
        else 0
      let start := (tail.start + overflow) % tail.capacity
      let size := tail.size - overflow
      { tail with
        storage := Ring.store tail.storage tail.capacity (start + size) data
        start := start
        size := size + data.length }

def read (tail : BoundedLogTail) (offset maxSize : Nat) : List UInt8 :=
  let offset := if offset < tail.beginOffset then tail.beginOffset else offset
  if offset ≥ tail.totalBytes || maxSize = 0 || tail.capacity = 0 then []
  else
    let skip := offset - tail.beginOffset
    Ring.window tail.storage tail.capacity (tail.start + skip) (min maxSize (tail.size - skip))

def snapshot (tail : BoundedLogTail) : List UInt8 := tail.read tail.beginOffset tail.size

def contents (tail : BoundedLogTail) : List UInt8 :=
  Ring.window tail.storage tail.capacity tail.start tail.size

/-- The tail holds the end of what was appended since it was cleared. -/
structure Holds (tail : BoundedLogTail) (output : List UInt8) : Prop where
  total : tail.totalBytes = output.length
  size : tail.size = min tail.capacity output.length
  contents : tail.contents = output.drop (output.length - tail.size)

theorem holds_empty (capacity : Nat) : Holds { capacity := capacity } [] where
  total := rfl
  size := (Nat.min_zero _).symm
  contents := rfl

theorem holds_clear (tail : BoundedLogTail) : Holds tail.clear [] where
  total := rfl
  size := (Nat.min_zero _).symm
  contents := rfl

@[simp] theorem append_nil (tail : BoundedLogTail) : tail.append [] = tail := rfl

@[simp] theorem append_capacity (tail : BoundedLogTail) (data : List UInt8) :
    (tail.append data).capacity = tail.capacity := by
  rw [append]
  simp only
  repeat' split
  all_goals rfl

@[simp] theorem append_totalBytes (tail : BoundedLogTail) (data : List UInt8) :
    (tail.append data).totalBytes = tail.totalBytes + data.length := by
  rw [append]
  simp only
  repeat' split
  all_goals first | rfl | omega

theorem Holds.append_long (h : Holds tail output) (hpos : 0 < tail.capacity)
    (hlong : tail.capacity ≤ data.length) : Holds (tail.append data) (output ++ data) := by
  have hdrop : (data.drop (data.length - tail.capacity)).length = tail.capacity := by
    rw [List.length_drop]
    omega
  have happend : tail.append data =
      { tail with
        totalBytes := tail.totalBytes + data.length
        storage := Ring.store tail.storage tail.capacity 0
          (data.drop (data.length - tail.capacity))
        start := 0
        size := tail.capacity } := by
    have hdata : data.length ≠ 0 := by omega
    rw [append, if_neg hdata, if_neg (Nat.pos_iff_ne_zero.1 hpos), if_pos hlong]
  have hwindow := @Ring.window_store _ tail.storage tail.capacity 0 0
    (data.drop (data.length - tail.capacity)) (by omega)
  rw [happend]
  constructor
  · rw [List.length_append, ← h.total]
  · rw [List.length_append]
    simp only
    omega
  · simp only [hdrop, Nat.zero_add] at hwindow
    simp only [BoundedLogTail.contents]
    have hall : output.length ≤ output.length + data.length - tail.capacity := by omega
    rw [hwindow, Ring.window, List.range_zero, List.map_nil, List.nil_append, List.length_append,
      List.drop_append, List.drop_eq_nil_of_le hall, List.nil_append]
    congr 1
    omega

theorem Holds.append_short (h : Holds tail output) (hpos : data.length ≠ 0)
    (hshort : data.length < tail.capacity) : Holds (tail.append data) (output ++ data) := by
  obtain ⟨htotal, hsize, hcontents⟩ := h
  obtain ⟨overflow, hoverflow⟩ : ∃ overflow, overflow =
      if tail.size + data.length > tail.capacity then tail.size + data.length - tail.capacity
      else 0 := ⟨_, rfl⟩
  have hfits : tail.size - overflow + data.length = min tail.capacity (output ++ data).length := by
    rw [List.length_append, hoverflow, hsize]
    split
    all_goals omega
  have happend : tail.append data =
      { tail with
        totalBytes := tail.totalBytes + data.length
        storage := Ring.store tail.storage tail.capacity
          ((tail.start + overflow) % tail.capacity + (tail.size - overflow)) data
        start := (tail.start + overflow) % tail.capacity
        size := tail.size - overflow + data.length } := by
    have hcapacity : tail.capacity ≠ 0 := by omega
    rw [append, if_neg hpos, if_neg hcapacity, if_neg (Nat.not_le.2 hshort), hoverflow]
  rw [happend]
  constructor
  · rw [List.length_append, ← htotal]
  · exact hfits
  · have hcap : tail.size - overflow + data.length ≤ tail.capacity := by omega
    simp only [BoundedLogTail.contents] at hcontents ⊢
    rw [Ring.window_store data hcap, Ring.window_advance, hcontents, List.drop_drop,
      List.length_append, List.drop_append]
    rw [List.length_append] at hfits
    have hover : overflow ≤ tail.size := by
      rw [hoverflow]
      split
      all_goals omega
    congr 1
    · congr 1
      omega
    · rw [show output.length + data.length - (tail.size - overflow + data.length) -
        output.length = 0 by omega, List.drop_zero]

theorem Holds.append (h : Holds tail output) (data : List UInt8) :
    Holds (tail.append data) (output ++ data) := by
  by_cases hnil : data.length = 0
  · rw [List.length_eq_zero_iff.1 hnil, append_nil, List.append_nil]
    exact h
  by_cases hzero : tail.capacity = 0
  · have hempty : tail.size = 0 := by
      rw [h.size, hzero, Nat.zero_min]
    have happend : tail.append data =
        { tail with totalBytes := tail.totalBytes + data.length } := by
      rw [BoundedLogTail.append, if_neg hnil, if_pos hzero]
    rw [happend]
    constructor
    · rw [List.length_append, ← h.total]
    · simp only
      rw [hempty, hzero, Nat.zero_min]
    · simp only [BoundedLogTail.contents]
      rw [hempty, Nat.sub_zero, List.drop_length]
      rfl
  by_cases hlong : tail.capacity ≤ data.length
  · exact h.append_long (by omega) hlong
  · exact h.append_short hnil (by omega)

theorem Holds.beginOffset (h : Holds tail output) :
    tail.beginOffset = output.length - min tail.capacity output.length := by
  rw [BoundedLogTail.beginOffset, h.total, h.size]

theorem Holds.read (h : Holds tail output) (offset maxSize : Nat) :
    tail.read offset maxSize =
      (output.drop
        (max offset (output.length - min tail.capacity output.length))).take maxSize := by
  obtain ⟨start, hstart⟩ : ∃ start, start = max offset tail.beginOffset := ⟨_, rfl⟩
  have hoffset : (if offset < tail.beginOffset then tail.beginOffset else offset) = start := by
    rw [hstart]
    split
    all_goals omega
  have hbegin : tail.beginOffset = output.length - tail.size := by
    rw [BoundedLogTail.beginOffset, h.total]
  have hsize := h.size
  rw [← h.beginOffset, ← hstart, BoundedLogTail.read]
  simp only [hoffset, h.total]
  split
  · rename_i hnone
    simp only [ge_iff_le, Bool.or_eq_true, decide_eq_true_eq] at hnone
    rcases hnone with (hend | hzero) | hcap
    · rw [List.drop_eq_nil_of_le hend, List.take_nil]
    · rw [hzero, List.take_zero]
    · have hend : output.length ≤ start := by omega
      rw [List.drop_eq_nil_of_le hend, List.take_nil]
  · rename_i hsome
    simp only [ge_iff_le, Bool.or_eq_true, decide_eq_true_eq, not_or] at hsome
    have hskip : start - tail.beginOffset + min maxSize (tail.size - (start - tail.beginOffset)) ≤
        tail.size := by omega
    rw [Ring.window_slice hskip]
    have hcontents := h.contents
    simp only [BoundedLogTail.contents] at hcontents
    rw [hcontents, List.drop_drop, show output.length - tail.size + (start - tail.beginOffset) =
      start by omega, List.take_eq_take_iff, List.length_drop]
    omega

theorem Holds.snapshot (h : Holds tail output) :
    tail.snapshot = output.drop (output.length - min tail.capacity output.length) := by
  rw [BoundedLogTail.snapshot, h.read, h.beginOffset, Nat.max_self, List.take_of_length_le]
  rw [List.length_drop, h.size]
  omega

/-- What is done to a tail while its program runs and is started again. -/
inductive Call where
  | append (data : List UInt8)
  | clear
  deriving DecidableEq, Repr

def Call.apply (tail : BoundedLogTail) : Call → BoundedLogTail
  | append data => tail.append data
  | clear => tail.clear

/-- The output since the last clear. -/
def Call.output (before : List UInt8) : Call → List UInt8
  | append data => before ++ data
  | clear => []

def run (calls : List Call) (tail : BoundedLogTail) : BoundedLogTail := calls.foldl Call.apply tail

def appended (calls : List Call) : List UInt8 := calls.foldl Call.output []

@[simp] theorem clear_capacity (tail : BoundedLogTail) : tail.clear.capacity = tail.capacity := rfl

theorem Call.apply_capacity (call : Call) (tail : BoundedLogTail) :
    (call.apply tail).capacity = tail.capacity := by
  cases call with
  | append data => exact tail.append_capacity data
  | clear => rfl

theorem Holds.apply (h : Holds tail output) (call : Call) :
    Holds (call.apply tail) (call.output output) := by
  cases call with
  | append data => exact h.append data
  | clear => exact holds_clear tail

theorem Holds.run (h : Holds tail output) (calls : List Call) :
    Holds (run calls tail) (calls.foldl Call.output output) ∧
      (BoundedLogTail.run calls tail).capacity = tail.capacity := by
  induction calls generalizing tail output with
  | nil => exact ⟨h, rfl⟩
  | cons call rest ih =>
    obtain ⟨hholds, hcapacity⟩ := ih (h.apply call)
    refine ⟨hholds, ?_⟩
    rw [← call.apply_capacity tail]
    exact hcapacity

/-- Whatever is appended and cleared, the tail gives back the end of the output since the last
clear, and any slice of it by its offset in that output. -/
theorem run_slices (capacity : Nat) (calls : List Call) :
    let tail := run calls { capacity := capacity }
    let output := appended calls
    let lost := output.length - min capacity output.length
    tail.snapshot = output.drop lost ∧ tail.snapshot.length = min capacity output.length ∧
      ∀ offset maxSize, tail.read offset maxSize =
        (output.drop (max offset lost)).take maxSize := by
  intro tail output lost
  have hrun : Holds tail output ∧ tail.capacity = capacity := (holds_empty capacity).run calls
  obtain ⟨hholds, hcapacity⟩ := hrun
  have hsnapshot : tail.snapshot = output.drop lost := by
    rw [hholds.snapshot, hcapacity]
  refine ⟨hsnapshot, ?_, ?_⟩
  · rw [hsnapshot, List.length_drop]
    exact Nat.sub_sub_self (Nat.min_le_right _ _)
  · intro offset maxSize
    rw [hholds.read, hcapacity]

/-- A reader has got all that the tail still holds before its offset. -/
structure Follows (tail : BoundedLogTail) (output received : List UInt8) (offset : Nat) : Prop where
  bound : offset ≤ output.length
  suffix : (output.take offset).drop tail.beginOffset <:+ received

theorem Holds.beginOffset_le (h : Holds tail output) : tail.beginOffset ≤ output.length := by
  rw [h.beginOffset]
  exact Nat.sub_le _ _

theorem Holds.follows (h : Holds tail output) (received : List UInt8) :
    Follows tail output received tail.beginOffset := by
  refine ⟨h.beginOffset_le, ?_⟩
  rw [List.drop_eq_nil_of_le (List.length_take_le _ _)]
  exact List.nil_suffix

theorem Follows.append {tail tail' : BoundedLogTail} {output received : List UInt8} {offset : Nat}
    (hf : Follows tail output received offset) (h : Holds tail output)
    (h' : Holds tail' (output ++ data)) (hcapacity : tail'.capacity = tail.capacity) :
    Follows tail' (output ++ data) received offset := by
  have hbegin : tail.beginOffset ≤ tail'.beginOffset := by
    rw [h.beginOffset, h'.beginOffset, hcapacity, List.length_append]
    omega
  obtain ⟨n, hn⟩ := Nat.exists_eq_add_of_le hbegin
  refine ⟨?_, ?_⟩
  · rw [List.length_append]
    exact hf.bound.trans (Nat.le_add_right _ _)
  · rw [List.take_append_of_le_length hf.bound, hn, ← List.drop_drop]
    exact (List.drop_suffix _ _).trans hf.suffix

theorem Follows.skip {output received : List UInt8} {offset : Nat}
    (hf : Follows tail output received offset) (h : Holds tail output) :
    Follows tail output received (max offset tail.beginOffset) := by
  rcases Nat.le_total tail.beginOffset offset with hle | hle
  · rw [Nat.max_eq_left hle]
    exact hf
  · rw [Nat.max_eq_right hle]
    exact h.follows received

theorem Follows.read {output received : List UInt8} {offset : Nat}
    (hf : Follows tail output received offset) (h : Holds tail output)
    (hbegin : tail.beginOffset ≤ offset) (maxSize : Nat) :
    Follows tail output (received ++ tail.read offset maxSize)
      (offset + (tail.read offset maxSize).length) := by
  obtain ⟨content, hcontent⟩ : ∃ content, content = tail.read offset maxSize := ⟨_, rfl⟩
  have hread : content = (output.drop offset).take maxSize := by
    rw [hcontent, h.read, ← h.beginOffset, Nat.max_eq_left hbegin]
  have htake : (output.drop offset).take content.length = content := by
    rw [hread, List.length_take, ← List.take_take, List.take_length]
  rw [← hcontent]
  refine ⟨?_, ?_⟩
  · have hlength : content.length ≤ output.length - offset := by
      rw [hread, List.length_take, List.length_drop]
      exact Nat.min_le_right _ _
    have hbound := hf.bound
    omega
  · rw [List.take_add, htake, List.drop_append_of_le_length]
    · obtain ⟨before, hbefore⟩ := hf.suffix
      exact ⟨before, by rw [← List.append_assoc, hbefore]⟩
    · rw [List.length_take]
      exact Nat.le_min.2 ⟨hbegin, h.beginOffset_le⟩

theorem Follows.snapshot {output received : List UInt8} {offset : Nat}
    (hf : Follows tail output received offset) (h : Holds tail output)
    (hend : tail.totalBytes ≤ offset) : tail.snapshot <:+ received := by
  rw [h.snapshot, ← h.beginOffset]
  have hall := hf.suffix
  rw [List.take_of_length_le (h.total ▸ hend)] at hall
  exact hall

end BoundedLogTail

end PmTiny
