import PmTiny.Core.RotatingLogWriter
import PmTiny.Daemon.Handlers
import PmTiny.Persist.ProgCfg

namespace PmTiny
open Persist
set_option autoImplicit true

/-- `find_last_of`. -/
def findLastOf (among : Char → Bool) : List Char → Option Nat
  | [] => none
  | c :: rest =>
    match findLastOf among rest with
    | some index => some (index + 1)
    | none => if among c then some 0 else none

def isSeparator (c : Char) : Bool := c == '/' || c == '\\'

def deriveLogFileNames (programName : String) (mode : LogMode) (configuredName : String) :
    List String :=
  let base := if configuredName = "" then programName ++ ".log" else configuredName
  match mode with
  | .combined => [base]
  | .split =>
    let slash := findLastOf isSeparator base.toList
    match findLastOf (· == '.') base.toList with
    | none => [base ++ "_stdout", base ++ "_stderr"]
    | some dot =>
      if dot ≠ 0 ∧ ∀ index ∈ slash, index + 1 < dot then
        let stem := String.ofList (base.toList.take dot)
        let extension := String.ofList (base.toList.drop dot)
        [stem ++ "_stdout" ++ extension, stem ++ "_stderr" ++ extension]
      else [base ++ "_stdout", base ++ "_stderr"]

def deriveLogPaths (directory programName : String) (mode : LogMode) (configuredName : String) :
    List String :=
  let names := deriveLogFileNames programName mode configuredName
  if directory = "" then names
  else
    let separator := if directory.toList.getLast?.any isSeparator then "" else "/"
    names.map fun name => directory ++ separator ++ name

/-- The files that are written for a program without a name for its log file: the logs and their
archives. -/
def logFiles (directory programName : String) (mode : LogMode) (archiveCount : Nat) :
    List String :=
  (deriveLogPaths directory programName mode "").flatMap fun path =>
    (List.range (archiveCount + 1)).map (RotatingLogWriter.fileName path)

def logStreams : LogMode → List String
  | .combined => [""]
  | .split => ["_stdout", "_stderr"]

theorem findLastOf_append (h : findLastOf among ys = some index) (xs : List Char) :
    findLastOf among (xs ++ ys) = some (xs.length + index) := by
  induction xs with
  | nil => rw [List.nil_append, h, List.length_nil, Nat.zero_add]
  | cons c xs ih =>
    rw [List.cons_append, findLastOf, ih, List.length_cons, Nat.add_right_comm]

theorem findLastOf_none (h : ∀ c ∈ xs, among c = false) : findLastOf among xs = none := by
  induction xs with
  | nil => rfl
  | cons c xs ih =>
    rw [findLastOf, ih fun d hd => h d (List.mem_cons_of_mem _ hd), h c List.mem_cons_self]
    rfl

theorem validRest_ne_separator (h : validRest c = true) : isSeparator c = false := by
  rw [isSeparator, Bool.or_eq_false_iff, beq_eq_false_iff_ne, beq_eq_false_iff_ne]
  constructor
  · rintro rfl
    exact absurd h (by decide)
  · rintro rfl
    exact absurd h (by decide)

theorem not_separator_of_valid (h : isValidProgramName name = true) :
    ∀ c ∈ name.toList, isSeparator c = false := by
  intro c hc
  rw [isValidProgramName] at h
  apply validRest_ne_separator
  generalize name.toList = letters at h hc
  cases letters with
  | nil => cases h
  | cons first rest =>
    simp only [Bool.and_eq_true, List.all_eq_true] at h
    rcases List.mem_cons.1 hc with rfl | hrest
    · rw [validRest, h.1.2, Bool.true_or, Bool.true_or, Bool.true_or]
    · exact h.2 c hrest

theorem length_pos_of_valid (h : isValidProgramName name = true) : name.toList.length ≠ 0 := by
  rw [isValidProgramName] at h
  generalize name.toList = letters at h ⊢
  cases letters with
  | nil => cases h
  | cons first rest => exact Nat.succ_ne_zero _

theorem deriveLogFileNames_eq (h : isValidProgramName name = true) (mode : LogMode) :
    deriveLogFileNames name mode "" =
      (logStreams mode).map fun stream => name ++ stream ++ ".log" := by
  cases mode with
  | combined =>
    rw [deriveLogFileNames, if_pos rfl, logStreams, List.map_singleton, String.append_empty]
  | split =>
    have hbase : (name ++ ".log").toList = name.toList ++ ['.', 'l', 'o', 'g'] :=
      String.toList_append
    have hslash : findLastOf isSeparator (name ++ ".log").toList = none := by
      apply findLastOf_none
      intro c hc
      rw [hbase, List.mem_append] at hc
      rcases hc with hc | hc
      · exact not_separator_of_valid h c hc
      · simp only [List.mem_cons, List.not_mem_nil, or_false] at hc
        rcases hc with rfl | rfl | rfl | rfl
        · rfl
        · rfl
        · rfl
        · rfl
    have hdot : findLastOf (· == '.') (name ++ ".log").toList = some name.toList.length := by
      have hlog : findLastOf (· == '.') ['.', 'l', 'o', 'g'] = some 0 := by simp [findLastOf]
      rw [hbase]
      exact findLastOf_append hlog _
    have hextension : name.toList.length ≠ 0 ∧ ∀ index ∈ (none : Option Nat),
        index + 1 < name.toList.length :=
      ⟨length_pos_of_valid h, fun _ hnone => absurd hnone (Option.not_mem_none _)⟩
    have hstem : String.ofList ((name ++ ".log").toList.take name.toList.length) = name := by
      rw [hbase, List.take_left, String.ofList_toList]
    have hlog : String.ofList ((name ++ ".log").toList.drop name.toList.length) = ".log" := by
      rw [hbase, List.drop_left]
    simp only [deriveLogFileNames, if_pos, hslash, hdot, if_pos hextension, hstem, hlog, logStreams,
      List.map_cons, List.map_nil]

def leading (directory : String) : String :=
  if directory = "" then ""
  else directory ++ if directory.toList.getLast?.any isSeparator then "" else "/"

theorem deriveLogPaths_eq (directory name : String) (mode : LogMode) (configuredName : String) :
    deriveLogPaths directory name mode configuredName =
      (deriveLogFileNames name mode configuredName).map fun file => leading directory ++ file := by
  rw [deriveLogPaths, leading]
  split
  · simp only [String.empty_append, List.map_id_fun', id]
  · rfl

theorem mem_logFiles_iff (h : isValidProgramName name = true) :
    file ∈ logFiles directory name mode archiveCount ↔
      ∃ stream ∈ logStreams mode, ∃ index ≤ archiveCount, file =
        RotatingLogWriter.fileName (leading directory ++ (name ++ stream ++ ".log")) index := by
  rw [logFiles, deriveLogPaths_eq, deriveLogFileNames_eq h]
  simp only [List.mem_flatMap, List.mem_map, List.mem_range, Nat.lt_succ_iff]
  constructor
  · rintro ⟨_, ⟨_, ⟨stream, hstream, rfl⟩, rfl⟩, index, hindex, rfl⟩
    exact ⟨stream, hstream, index, hindex, rfl⟩
  · rintro ⟨stream, hstream, index, hindex, rfl⟩
    exact ⟨_, ⟨_, ⟨stream, hstream, rfl⟩, rfl⟩, index, hindex, rfl⟩

theorem append_dot_inj (hxs : '.' ∉ tail) (hys : '.' ∉ tail')
    (h : xs ++ '.' :: tail = ys ++ '.' :: tail') : xs = ys := by
  rcases List.append_eq_append_iff.1 h with ⟨middle, rfl, htail⟩ | ⟨middle, rfl, htail⟩
  · cases middle with
    | nil => rw [List.append_nil]
    | cons c middle =>
      rw [(List.cons.inj htail).2] at hxs
      exact absurd (List.mem_append_right _ List.mem_cons_self) hxs
  · cases middle with
    | nil => rw [List.append_nil]
    | cons c middle =>
      rw [(List.cons.inj htail).2] at hys
      exact absurd (List.mem_append_right _ List.mem_cons_self) hys

theorem isDigit_of_mem_toString {count : Nat} (h : c ∈ (toString count).toList) :
    c.isDigit = true := by
  rw [show toString count = count.repr from rfl, Nat.toList_repr] at h
  exact Nat.isDigit_of_mem_toDigits (by decide) (by decide) h

theorem dot_not_mem_toString (count : Nat) : '.' ∉ (toString count).toList :=
  fun h => absurd (isDigit_of_mem_toString h) (by decide)

theorem ne_fileName_succ (path other : String) (index : Nat) :
    path ++ ".log" ≠ RotatingLogWriter.fileName other (index + 1) := by
  intro h
  have hlast := congrArg (fun file : String => file.toList.getLast?) h
  simp only [RotatingLogWriter.fileName, String.toList_append] at hlast
  have hdigits : (toString (index + 1)).toList ≠ [] := by
    rw [show toString (index + 1) = (index + 1).repr from rfl, Nat.toList_repr]
    exact Nat.toDigits_ne_nil
  rw [List.getLast?_append_of_ne_nil _ hdigits, List.getLast?_append_of_ne_nil _ (by decide),
    List.getLast?_eq_some_getLast hdigits] at hlast
  have hmem := isDigit_of_mem_toString (List.getLast_mem hdigits)
  rw [← Option.some.inj hlast] at hmem
  exact absurd hmem (by decide)

theorem path_of_fileName_eq (h : RotatingLogWriter.fileName (path ++ ".log") index =
    RotatingLogWriter.fileName (other ++ ".log") index') : path = other := by
  apply (String.append_left_inj ".log").1
  cases index with
  | zero =>
    cases index' with
    | zero => exact h
    | succ index' => exact absurd h (ne_fileName_succ _ _ _)
  | succ index =>
    cases index' with
    | zero => exact absurd h.symm (ne_fileName_succ _ _ _)
    | succ index' =>
      have hlist := congrArg String.toList h
      simp only [RotatingLogWriter.fileName, String.toList_append, List.append_assoc] at hlist
      apply String.toList_inj.1
      rw [String.toList_append, String.toList_append]
      apply append_dot_inj (dot_not_mem_toString (index + 1)) (dot_not_mem_toString (index' + 1))
      rw [List.append_assoc, List.append_assoc]
      exact hlist

/-- One program splits its streams, and the other one has the name of the first with a stream. -/
def Shares (name : String) (mode : LogMode) (other : String) (otherMode : LogMode) : Prop :=
  mode = .split ∧ otherMode = .combined ∧ (other = name ++ "_stdout" ∨ other = name ++ "_stderr")

theorem stdout_ne_stderr (name other : String) : name ++ "_stdout" ≠ other ++ "_stderr" := by
  intro h
  have hlast := congrArg (fun file : String => file.toList.getLast?) h
  simp only [String.toList_append] at hlast
  rw [List.getLast?_append_of_ne_nil _ (by decide), List.getLast?_append_of_ne_nil _ (by decide)]
    at hlast
  exact absurd hlast (by decide)

theorem shares_of_streams (hne : name ≠ other) (hstream : stream ∈ logStreams mode)
    (hother : stream' ∈ logStreams otherMode) (h : name ++ stream = other ++ stream') :
    Shares name mode other otherMode ∨ Shares other otherMode name mode := by
  cases mode with
  | combined =>
    cases List.mem_singleton.1 hstream
    rw [String.append_empty] at h
    cases otherMode with
    | combined =>
      cases List.mem_singleton.1 hother
      rw [String.append_empty] at h
      exact absurd h hne
    | split =>
      right
      rcases List.mem_pair.1 hother with rfl | rfl
      · exact ⟨rfl, rfl, .inl h⟩
      · exact ⟨rfl, rfl, .inr h⟩
  | split =>
    cases otherMode with
    | combined =>
      cases List.mem_singleton.1 hother
      rw [String.append_empty] at h
      left
      rcases List.mem_pair.1 hstream with rfl | rfl
      · exact ⟨rfl, rfl, .inl h.symm⟩
      · exact ⟨rfl, rfl, .inr h.symm⟩
    | split =>
      rcases List.mem_pair.1 hstream with rfl | rfl
      · rcases List.mem_pair.1 hother with rfl | rfl
        · exact absurd ((String.append_left_inj _).1 h) hne
        · exact absurd h (stdout_ne_stderr _ _)
      · rcases List.mem_pair.1 hother with rfl | rfl
        · exact absurd h.symm (stdout_ne_stderr _ _)
        · exact absurd ((String.append_left_inj _).1 h) hne

theorem not_disjoint_of_shares (hname : isValidProgramName name = true)
    (hother : isValidProgramName other = true) (h : Shares name mode other otherMode) :
    ¬ (logFiles directory name mode archiveCount).Disjoint
      (logFiles directory other otherMode otherCount) := by
  obtain ⟨rfl, rfl, hstream⟩ := h
  intro hdisjoint
  obtain ⟨stream, hmem, rfl⟩ : ∃ stream ∈ logStreams .split, other = name ++ stream := by
    rcases hstream with hstream | hstream
    · exact ⟨_, List.mem_cons_self, hstream⟩
    · exact ⟨_, List.mem_cons_of_mem _ List.mem_cons_self, hstream⟩
  refine hdisjoint ((mem_logFiles_iff hname).2 ⟨stream, hmem, 0, Nat.zero_le _, rfl⟩)
    ((mem_logFiles_iff hother).2 ⟨"", List.mem_singleton.2 rfl, 0, Nat.zero_le _, ?_⟩)
  rw [String.append_empty]

/-- Two programs share a file exactly when the combined log of one has the name of a stream of the
other. -/
theorem logFiles_disjoint_iff (hname : isValidProgramName name = true)
    (hother : isValidProgramName other = true) (hne : name ≠ other) :
    (logFiles directory name mode archiveCount).Disjoint
        (logFiles directory other otherMode otherCount) ↔
      ¬ Shares name mode other otherMode ∧ ¬ Shares other otherMode name mode := by
  constructor
  · intro hdisjoint
    constructor
    · exact fun h => not_disjoint_of_shares hname hother h hdisjoint
    · exact fun h => not_disjoint_of_shares hother hname h hdisjoint.symm
  · intro hnone file hfile hfile'
    obtain ⟨stream, hstream, index, -, rfl⟩ := (mem_logFiles_iff hname).1 hfile
    obtain ⟨stream', hstream', index', -, hsame⟩ := (mem_logFiles_iff hother).1 hfile'
    simp only [← String.append_assoc] at hsame
    have hpath := path_of_fileName_eq hsame
    rw [String.append_assoc, String.append_assoc] at hpath
    have hstreams := (String.append_right_inj _).1 hpath
    rcases shares_of_streams hne hstream hstream' hstreams with h | h
    · exact hnone.1 h
    · exact hnone.2 h

theorem logFiles_disjoint_iff_splits :
    (logFiles "/log" "a" .split 3).Disjoint (logFiles "/log" "b" .split 3) := by
  apply (logFiles_disjoint_iff (by decide) (by decide) (by decide)).2
  constructor
  · exact fun h => absurd h.2.1 (by decide)
  · exact fun h => absurd h.2.1 (by decide)

/-- The programs `a`, split, and `a_stdout`, combined, write to one file. -/
theorem logFiles_shared :
    isValidProgramName "a" = true ∧ isValidProgramName "a_stdout" = true ∧
      ¬ (logFiles "/log" "a" .split 3).Disjoint (logFiles "/log" "a_stdout" .combined 3) :=
  ⟨by decide, by decide, not_disjoint_of_shares (by decide) (by decide) ⟨rfl, rfl, .inl rfl⟩⟩

end PmTiny
