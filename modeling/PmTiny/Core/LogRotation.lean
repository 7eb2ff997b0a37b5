import PmTiny.Core.RotatingLogWriter
import Mathlib.Tactic.Common

namespace PmTiny
set_option autoImplicit true

namespace RotatingLogWriter

variable {w w' : RotatingLogWriter}

structure Same (w w' : RotatingLogWriter) : Prop where
  platform : w'.platform = w.platform
  path : w'.path = w.path
  maxSizeBytes : w'.maxSizeBytes = w.maxSizeBytes
  archiveCount : w'.archiveCount = w.archiveCount
  answers : w'.answers = w.answers

theorem Same.refl (w : RotatingLogWriter) : Same w w := ⟨rfl, rfl, rfl, rfl, rfl⟩

theorem Same.trans (h : Same w w') (h' : Same w' w'') : Same w w'' where
  platform := h'.platform.trans h.platform
  path := h'.path.trans h.path
  maxSizeBytes := h'.maxSizeBytes.trans h.maxSizeBytes
  archiveCount := h'.archiveCount.trans h.archiveCount
  answers := h'.answers.trans h.answers

theorem same_close (w : RotatingLogWriter) : Same w w.close := ⟨rfl, rfl, rfl, rfl, rfl⟩

theorem same_renameFile (source : Nat) (w : RotatingLogWriter) : Same w (w.renameFile source) := by
  rw [renameFile]
  split
  · exact .refl w
  · exact ⟨rfl, rfl, rfl, rfl, rfl⟩

theorem ask_cases (call : SystemCall) (w : RotatingLogWriter) :
    ∃ answer, (w.ask call).2 = w.record call answer ∧ answer = w.answer call ∧
      ((w.ask call).1 = none ↔ ∃ bytes, w.answer call = .done bytes) := by
  rw [ask]
  split
  · rename_i bytes hanswer
    exact ⟨_, rfl, hanswer.symm, iff_of_true rfl ⟨bytes, hanswer⟩⟩
  · rename_i hanswer
    refine ⟨_, rfl, hanswer.symm, iff_of_false (Option.some_ne_none _) ?_⟩
    rintro ⟨bytes, hbytes⟩
    rw [hanswer] at hbytes
    cases hbytes
  · rename_i reason hanswer
    refine ⟨_, rfl, hanswer.symm, iff_of_false (Option.some_ne_none _) ?_⟩
    rintro ⟨bytes, hbytes⟩
    rw [hanswer] at hbytes
    cases hbytes

/-- The files are as before, and so is the place where the next byte goes. -/
structure Unmoved (w w' : RotatingLogWriter) : Prop extends Same w w' where
  files : w'.files = w.files
  rotations : w'.rotations = w.rotations
  handle : w'.handle = w.handle
  currentSize : w'.currentSize = w.currentSize

theorem unmoved_ask (call : SystemCall) (w : RotatingLogWriter) : Unmoved w (w.ask call).2 := by
  obtain ⟨answer, h, -⟩ := w.ask_cases call
  rw [h]
  exact ⟨⟨rfl, rfl, rfl, rfl, rfl⟩, rfl, rfl, rfl, rfl⟩

/-- No call fails, every write that is answered takes a byte, and no write is interrupted for
ever. -/
structure Healthy (answers : Nat → SystemCall → Answer) : Prop where
  answered : ∀ time call reason, answers time call ≠ .failed reason
  uninterrupted : ∀ time call, call ≠ .write → answers time call ≠ .interrupted
  writes : ∀ time, answers time .write ≠ .done 0
  progress : ∀ time, ∃ later ≥ time, answers later .write ≠ .interrupted

theorem Healthy.ask (h : Healthy w.answers) (hcall : call ≠ .write) : (w.ask call).1 = none := by
  obtain ⟨-, -, -, hdone⟩ := w.ask_cases call
  rw [hdone]
  cases hanswer : w.answer call with
  | done bytes => exact ⟨bytes, rfl⟩
  | interrupted => exact absurd hanswer (h.uninterrupted _ call hcall)
  | failed reason => exact absurd hanswer (h.answered _ call reason)

/-- What `open` may do to the files: the log file is there when it succeeds. -/
structure Opens (w w' : RotatingLogWriter) : Prop extends Same w w' where
  archives : ∀ index, 1 ≤ index → w'.files index = w.files index
  current : w'.files 0 = w.files 0 ∨ w.files 0 = none ∧ w'.files 0 = some []
  rotations : w'.rotations = w.rotations

theorem Unmoved.opens (h : Unmoved w w') : Opens w w' where
  toSame := h.toSame
  archives := fun _ _ => by rw [h.files]
  current := .inl (by rw [h.files])
  rotations := h.rotations

theorem Opens.trans (h : Opens w w') (h' : Opens w' w'') : Opens w w'' where
  toSame := h.toSame.trans h'.toSame
  archives := fun index hindex => (h'.archives index hindex).trans (h.archives index hindex)
  current := by
    rcases h'.current with heq | ⟨hnone, hnew⟩
    · rw [heq]
      exact h.current
    · rcases h.current with heq | ⟨-, hsome⟩
      · exact .inr ⟨heq ▸ hnone, hnew⟩
      · rw [hsome] at hnone
        cases hnone
  rotations := h'.rotations.trans h.rotations

theorem createFile_current (w : RotatingLogWriter) :
    w.createFile.files 0 = some ((w.files 0).getD []) := by
  simp only [createFile, Function.update_self]

theorem opens_createFile (w : RotatingLogWriter) : Opens w w.createFile where
  toSame := ⟨rfl, rfl, rfl, rfl, rfl⟩
  archives := fun index hindex => Function.update_of_ne (Nat.ne_of_gt hindex) _ _
  current := by
    rw [createFile_current]
    cases w.files 0 with
    | none => exact .inr ⟨rfl, rfl⟩
    | some file => exact .inl rfl
  rotations := rfl

theorem openCalls_opens (calls : List SystemCall) (w : RotatingLogWriter) :
    Opens w (openCalls calls w).2 := by
  induction calls generalizing w with
  | nil => exact ⟨.refl w, fun _ _ => rfl, .inl rfl, rfl⟩
  | cons call rest ih =>
    have hask := (w.unmoved_ask call).opens
    rw [openCalls]
    split
    · rename_i error v hv
      rw [hv] at hask
      exact hask
    · rename_i v hv
      rw [hv] at hask
      split
      · exact (hask.trans v.opens_createFile).trans (ih _)
      · exact hask.trans (ih _)

theorem openCalls_current (h : (openCalls calls w).1 = none)
    (hcreate : .create ∈ calls ∨ w.files 0 ≠ none) : (openCalls calls w).2.files 0 ≠ none := by
  induction calls generalizing w with
  | nil =>
    rcases hcreate with hmem | hfile
    · cases hmem
    · exact hfile
  | cons call rest ih =>
    have hfiles := (w.unmoved_ask call).files
    rw [openCalls] at h ⊢
    split at h
    · cases h
    · rename_i v hv
      rw [hv] at hfiles
      apply ih h
      by_cases hcall : call = .create
      · right
        rw [if_pos hcall, createFile_current]
        exact Option.some_ne_none _
      · rw [if_neg hcall]
        rcases hcreate with hmem | hfile
        · rw [List.mem_cons] at hmem
          exact .inl (hmem.resolve_left (Ne.symm hcall))
        · right
          rw [hfiles]
          exact hfile

theorem create_mem_callsOfOpen (platform : Platform) : .create ∈ callsOfOpen platform := by
  cases platform with
  | linux => decide
  | windows => decide

theorem openFile_opens (w : RotatingLogWriter) : Opens w w.openFile.2 ∧
    (w.openFile.1 = none → ∃ file, w.openFile.2.files 0 = some file ∧ w.openFile.2.handle = true ∧
      w.openFile.2.currentSize = file.length) := by
  have hclose : Opens w w.close := ⟨w.same_close, fun _ _ => rfl, .inl rfl, rfl⟩
  have hopens := openCalls_opens (callsOfOpen w.close.platform) w.close
  rw [openFile]
  split
  · exact ⟨hclose, fun h => absurd h (Option.some_ne_none _)⟩
  · split
    · rename_i error v hv
      rw [hv] at hopens
      exact ⟨hclose.trans hopens, fun h => absurd h (Option.some_ne_none _)⟩
    · rename_i v hv
      have hcurrent := openCalls_current (w := w.close) (congrArg Prod.fst hv)
        (.inl (create_mem_callsOfOpen _))
      rw [hv] at hopens hcurrent
      have hopens' := hclose.trans hopens
      refine ⟨⟨⟨hopens'.platform, hopens'.path, hopens'.maxSizeBytes, hopens'.archiveCount,
        hopens'.answers⟩, hopens'.archives, hopens'.current, hopens'.rotations⟩, fun _ => ?_⟩
      obtain ⟨file, hfile⟩ := Option.ne_none_iff_exists'.1 hcurrent
      refine ⟨file, hfile, rfl, ?_⟩
      simp only at hfile
      simp only [hfile, Option.getD_some]

theorem Healthy.openCalls (h : Healthy w.answers) (hcalls : .write ∉ calls) :
    (openCalls calls w).1 = none := by
  induction calls generalizing w with
  | nil => rfl
  | cons call rest ih =>
    rw [List.mem_cons, not_or] at hcalls
    have hask := h.ask (w := w) (Ne.symm hcalls.1)
    have hanswers := (w.unmoved_ask call).answers
    rw [RotatingLogWriter.openCalls]
    split
    · rename_i error v hv
      rw [hv] at hask
      cases hask
    · rename_i v hv
      rw [hv] at hanswers
      have hv' : Healthy v.answers := hanswers ▸ h
      split
      · exact ih (w := v.createFile) hv' hcalls.2
      · exact ih hv' hcalls.2

/-- A path, a size and a number of archives that `open` takes. -/
structure Valid (w : RotatingLogWriter) : Prop where
  path : w.path ≠ ""
  maxSizeBytes : 1 ≤ w.maxSizeBytes
  archiveCount : 0 ≤ w.archiveCount

theorem Valid.of_same (h : Valid w) (hs : Same w w') : Valid w' where
  path := hs.path ▸ h.path
  maxSizeBytes := hs.maxSizeBytes ▸ h.maxSizeBytes
  archiveCount := hs.archiveCount ▸ h.archiveCount

theorem Healthy.openFile (h : Healthy w.answers) (hvalid : Valid w) : w.openFile.1 = none := by
  have hwrite : .write ∉ callsOfOpen w.close.platform := by
    cases w.close.platform with
    | linux => decide
    | windows => decide
  have hcalls := Healthy.openCalls (w := w.close) h hwrite
  have hconfig : (decide (w.close.path = "") || decide (w.close.maxSizeBytes = 0) ||
      decide (w.close.archiveCount < 0)) = false := by
    have hpath : w.close.path ≠ "" := hvalid.path
    have hmax : w.close.maxSizeBytes ≠ 0 := Nat.pos_iff_ne_zero.1 hvalid.maxSizeBytes
    have hcount : ¬ w.close.archiveCount < 0 := Int.not_lt.2 hvalid.archiveCount
    simp only [hpath, hmax, hcount, decide_false, Bool.or_self]
  rw [RotatingLogWriter.openFile]
  simp only [hconfig, Bool.false_eq_true, if_false]
  split
  · rename_i error v hv
    rw [hv] at hcalls
    cases hcalls
  · rfl

theorem openFile_valid (h : w.openFile.1 = none) : Valid w := by
  rw [openFile] at h
  split at h
  · cases h
  · rename_i hconfig
    simp only [Bool.or_eq_true, decide_eq_true_eq, not_or] at hconfig
    obtain ⟨⟨hpath, hmax⟩, hcount⟩ := hconfig
    exact ⟨hpath, Nat.pos_of_ne_zero hmax, Int.not_lt.1 hcount⟩

theorem renameFile_source (source : Nat) (w : RotatingLogWriter) :
    (w.renameFile source).files source = none := by
  rw [renameFile]
  split
  · assumption
  · exact Function.update_self _ _ _

theorem renameFile_target (h : w.files source = none → w.files (source + 1) = none) :
    (w.renameFile source).files (source + 1) = w.files source := by
  rw [renameFile]
  split
  · rename_i hnone
    rw [h hnone, hnone]
  · simp only [ne_eq, Nat.succ_ne_self, not_false_eq_true, Function.update_of_ne,
      Function.update_self]

theorem renameFile_other (hsource : index ≠ source) (htarget : index ≠ source + 1) :
    (w.renameFile source).files index = w.files index := by
  rw [renameFile]
  split
  · rfl
  · simp only [ne_eq, hsource, htarget, not_false_eq_true, Function.update_of_ne]

theorem renameFile_rotations (source : Nat) (w : RotatingLogWriter) :
    (w.renameFile source).rotations = w.rotations := by
  rw [renameFile]
  split
  · rfl
  · rfl

theorem renameFiles_same (n : Nat) (w : RotatingLogWriter) :
    Same w (renameFiles n w).2 ∧ (renameFiles n w).2.rotations = w.rotations := by
  induction n generalizing w with
  | zero => exact ⟨.refl w, rfl⟩
  | succ n ih =>
    have hask := w.unmoved_ask (.rename n (n + 1))
    rw [renameFiles]
    split
    · rename_i error v hv
      rw [hv] at hask
      exact ⟨hask.toSame, hask.rotations⟩
    · rename_i v hv
      rw [hv] at hask
      obtain ⟨hsame, hrotations⟩ := ih (v.renameFile n)
      refine ⟨(hask.toSame.trans (v.same_renameFile n)).trans hsame, ?_⟩
      rw [hrotations, renameFile_rotations]
      exact hask.rotations

theorem renameFiles_current (h : (renameFiles n w).1 = none) (hpos : 0 < n) :
    (renameFiles n w).2.files 0 = none := by
  induction n generalizing w with
  | zero => exact absurd hpos (Nat.lt_irrefl 0)
  | succ n ih =>
    rw [renameFiles] at h ⊢
    split at h
    · cases h
    · rename_i v hv
      cases n with
      | zero => exact v.renameFile_source 0
      | succ n => exact ih h (Nat.succ_pos n)

theorem renameFiles_archives (h : (renameFiles n w).1 = none)
    (htop : ∀ last, n = last + 1 → w.files last = none → w.files n = none) :
    (∀ index < n, (renameFiles n w).2.files (index + 1) = w.files index) ∧
      ∀ index, n < index → (renameFiles n w).2.files index = w.files index := by
  induction n generalizing w with
  | zero => exact ⟨fun _ hindex => absurd hindex (Nat.not_lt_zero _), fun _ _ => rfl⟩
  | succ n ih =>
    have hfiles := (w.unmoved_ask (.rename n (n + 1))).files
    rw [renameFiles] at h ⊢
    split at h
    · cases h
    · rename_i v hv
      rw [hv] at hfiles
      have hmoved : (v.renameFile n).files (n + 1) = w.files n := by
        rw [renameFile_target, hfiles]
        intro hnone
        rw [hfiles] at hnone ⊢
        exact htop n rfl hnone
      obtain ⟨hlow, hhigh⟩ := ih h fun last hlast _ => v.renameFile_source n
      constructor
      · intro index hindex
        rcases Nat.lt_succ_iff_lt_or_eq.1 hindex with hlt | rfl
        · rw [← hfiles, ← v.renameFile_other (Nat.ne_of_lt hlt) (Nat.ne_of_lt hindex)]
          exact hlow index hlt
        · rw [← hmoved]
          exact hhigh _ (Nat.lt_succ_self _)
      · intro index hindex
        rw [← hfiles, ← v.renameFile_other (Nat.ne_of_gt (Nat.lt_of_succ_lt hindex))
          (Nat.ne_of_gt hindex)]
        exact hhigh index (Nat.lt_of_succ_lt hindex)

theorem Healthy.renameFiles (h : Healthy w.answers) (n : Nat) : (renameFiles n w).1 = none := by
  induction n generalizing w with
  | zero => rfl
  | succ n ih =>
    have hask : (w.ask (.rename n (n + 1))).1 = none := h.ask (by simp)
    have hanswers := (w.unmoved_ask (.rename n (n + 1))).answers
    rw [RotatingLogWriter.renameFiles]
    split
    · rename_i error v hv
      rw [hv] at hask
      cases hask
    · rename_i v hv
      rw [hv] at hanswers
      apply ih
      rw [(v.same_renameFile n).answers]
      exact hanswers ▸ h

theorem convertPath_unmoved (w : RotatingLogWriter) : Unmoved w w.convertPath.2 := by
  rw [convertPath]
  split
  · exact ⟨.refl w, rfl, rfl, rfl, rfl⟩
  · exact w.unmoved_ask .convert

theorem Healthy.convertPath (h : Healthy w.answers) : w.convertPath.1 = none := by
  rw [RotatingLogWriter.convertPath]
  split
  · rfl
  · exact h.ask (by simp)

structure Rotated (w w' : RotatingLogWriter) : Prop extends Same w w' where
  rotations : w'.rotations = w.rotations + 1
  handle : w'.handle = true
  currentSize : w'.currentSize = 0
  current : w'.files 0 = some []
  archives : (∀ last, w.archiveCount.toNat = last + 1 → w.files last = none →
    w.files w.archiveCount.toNat = none) →
    (∀ index < w.archiveCount.toNat, w'.files (index + 1) = w.files index) ∧
      ∀ index, w.archiveCount.toNat < index → w'.files index = w.files index

theorem rotated_truncated (hs : Same w v) (hfiles : v.files = w.files)
    (hrotations : v.rotations = w.rotations) (hzero : v.archiveCount = 0) :
    Rotated w { v with
      files := Function.update v.files 0 (some [])
      handle := true
      currentSize := 0
      rotations := v.rotations + 1 } where
  platform := hs.platform
  path := hs.path
  maxSizeBytes := hs.maxSizeBytes
  archiveCount := hs.archiveCount
  answers := hs.answers
  rotations := congrArg (· + 1) hrotations
  handle := rfl
  currentSize := rfl
  current := by simp only [Function.update_self]
  archives := by
    have hcount : w.archiveCount.toNat = 0 := by
      rw [← hs.archiveCount, hzero]
      rfl
    intro _
    rw [hcount]
    constructor
    · intro index hindex
      exact absurd hindex (Nat.not_lt_zero _)
    · intro index hindex
      simp only
      rw [Function.update_of_ne (Nat.ne_of_gt hindex), hfiles]

theorem rotated_renamed (hs : Same w v) (hfiles : v.files = w.files)
    (hrotations : v.rotations = w.rotations) (hcount : v.archiveCount ≠ 0)
    (hu : renameFiles v.archiveCount.toNat v = (none, u))
    (hopen : { u with rotations := u.rotations + 1 }.openFile = (none, w')) : Rotated w w' := by
  obtain ⟨hrenamed, hsteps⟩ := renameFiles_same v.archiveCount.toNat v
  obtain ⟨hopens, hopened⟩ := openFile_opens { u with rotations := u.rotations + 1 }
  have hvalid := openFile_valid (congrArg Prod.fst hopen)
  rw [hopen] at hopens hopened
  obtain ⟨file, hfile, hhandle, hsize⟩ := hopened rfl
  have hnone := renameFiles_current (congrArg Prod.fst hu)
  rw [hu] at hrenamed hsteps hnone
  have hsame : Same w u := hs.trans hrenamed
  have hge : 0 ≤ u.archiveCount := hvalid.archiveCount
  rw [hrenamed.archiveCount] at hge
  have hempty : file = [] := by
    rcases hopens.current with heq | ⟨-, hnew⟩
    · rw [hfile] at heq
      rw [hnone (by omega)] at heq
      cases heq
    · rw [hfile] at hnew
      cases hnew
      rfl
  refine ⟨⟨hopens.platform.trans hsame.platform, hopens.path.trans hsame.path,
    hopens.maxSizeBytes.trans hsame.maxSizeBytes, hopens.archiveCount.trans hsame.archiveCount,
    hopens.answers.trans hsame.answers⟩, ?_, hhandle, ?_, ?_, ?_⟩
  · rw [hopens.rotations]
    exact congrArg (· + 1) (hsteps.trans hrotations)
  · rw [hsize, hempty]
    rfl
  · rw [hfile, hempty]
  · intro htop
    rw [← hs.archiveCount] at htop ⊢
    obtain ⟨hlow, hhigh⟩ := renameFiles_archives (congrArg Prod.fst hu) fun last hlast => by
      rw [hfiles]
      exact htop last hlast
    rw [hu, hfiles] at hlow hhigh
    constructor
    · intro index hindex
      rw [hopens.archives _ (Nat.succ_pos _)]
      exact hlow index hindex
    · intro index hindex
      rw [hopens.archives _ (Nat.lt_of_le_of_lt (Nat.zero_le _) hindex)]
      exact hhigh index hindex

theorem rotate_rotated (h : w.rotate = (none, w')) : Rotated w w' := by
  have hconvert := w.close.convertPath_unmoved
  rw [rotate] at h
  split at h
  · cases h
  · rename_i v hv
    rw [hv] at hconvert
    have hsame : Same w v := w.same_close.trans hconvert.toSame
    have hfiles : v.files = w.files := hconvert.files
    have hrotations : v.rotations = w.rotations := hconvert.rotations
    split at h
    · rename_i hzero
      have hask := v.unmoved_ask .truncate
      split at h
      · cases h
      · rename_i u hu
        rw [hu] at hask
        cases h
        apply rotated_truncated
        · exact hsame.trans hask.toSame
        · exact hask.files.trans hfiles
        · exact hask.rotations.trans hrotations
        · exact hask.archiveCount.trans hzero
    · rename_i hcount
      split at h
      · cases h
      · rename_i u hu
        exact rotated_renamed hsame hfiles hrotations hcount hu h

theorem Healthy.rotate (h : Healthy w.answers) (hvalid : Valid w) : w.rotate.1 = none := by
  have hclosed : Healthy w.close.answers := h
  have hconvert := hclosed.convertPath
  have hunmoved := w.close.convertPath_unmoved
  rw [RotatingLogWriter.rotate]
  split
  · rename_i error v hv
    rw [hv] at hconvert
    cases hconvert
  · rename_i v hv
    rw [hv] at hunmoved
    have hsame := w.same_close.trans hunmoved.toSame
    have hv' : Healthy v.answers := hsame.answers ▸ h
    split
    · have hask : (v.ask .truncate).1 = none := hv'.ask (by simp)
      split
      · rename_i error u hu
        rw [hu] at hask
        cases hask
      · rfl
    · have hrename := hv'.renameFiles v.archiveCount.toNat
      have hrenamed := renameFiles_same v.archiveCount.toNat v
      split
      · rename_i error u hu
        rw [hu] at hrename
        cases hrename
      · rename_i u hu
        rw [hu] at hrenamed
        have hsame' := hsame.trans hrenamed.1
        have hu' : Valid u := hvalid.of_same hsame'
        apply Healthy.openFile
        · exact hsame'.answers ▸ h
        · exact ⟨hu'.path, hu'.maxSizeBytes, hu'.archiveCount⟩

structure Wrote (w w' : RotatingLogWriter) (bytes : List UInt8) : Prop extends Same w w' where
  files : bytes = [] ∧ w'.files = w.files ∨
    w'.files = Function.update w.files 0 (some ((w.files 0).getD [] ++ bytes))
  rotations : w'.rotations = w.rotations

theorem Wrote.refl (w : RotatingLogWriter) : Wrote w w [] := ⟨.refl w, .inl ⟨rfl, rfl⟩, rfl⟩

theorem Wrote.trans (h : Wrote w w' bytes) (h' : Wrote w' w'' rest) :
    Wrote w w'' (bytes ++ rest) where
  toSame := h.toSame.trans h'.toSame
  files := by
    rcases h.files with ⟨rfl, hfiles⟩ | hfiles
    · rw [List.nil_append, ← hfiles]
      exact h'.files
    · right
      rcases h'.files with ⟨rfl, hfiles'⟩ | hfiles'
      · rw [List.append_nil, hfiles', hfiles]
      · rw [hfiles', hfiles, Function.update_self, Function.update_idem, Option.getD_some,
          List.append_assoc]
  rotations := h'.rotations.trans h.rotations

theorem wrote_put (bytes : List UInt8) (w : RotatingLogWriter) : Wrote w (w.put bytes) bytes :=
  ⟨⟨rfl, rfl, rfl, rfl, rfl⟩, .inr rfl, rfl⟩

theorem wrote_record (call : SystemCall) (answer : Answer) (w : RotatingLogWriter) :
    Wrote w (w.record call answer) [] := ⟨⟨rfl, rfl, rfl, rfl, rfl⟩, .inl ⟨rfl, rfl⟩, rfl⟩

theorem wrote_close (w : RotatingLogWriter) : Wrote w w.close [] :=
  ⟨w.same_close, .inl ⟨rfl, rfl⟩, rfl⟩

/-- The writes put the front of the chunk behind what is in the file: all of it, and with the file
left open, when they are done. -/
theorem writeChunk_wrote (fuel : Nat) (chunk : List UInt8) (w : RotatingLogWriter) :
    ∃ bytes rest, chunk = bytes ++ rest ∧ Wrote w (writeChunk fuel chunk w).2 bytes ∧
      ((writeChunk fuel chunk w).1 = .done → rest = [] ∧
        (writeChunk fuel chunk w).2.handle = w.handle ∧
        (writeChunk fuel chunk w).2.currentSize = w.currentSize) := by
  induction fuel generalizing chunk w with
  | zero =>
    cases chunk with
    | nil => exact ⟨[], [], rfl, .refl w, fun _ => ⟨rfl, rfl, rfl⟩⟩
    | cons byte rest => exact ⟨[], byte :: rest, rfl, .refl w, fun h => by cases h⟩
  | succ fuel ih =>
    cases chunk with
    | nil => exact ⟨[], [], rfl, .refl w, fun _ => ⟨rfl, rfl, rfl⟩⟩
    | cons byte rest =>
      rw [writeChunk]
      split
      · obtain ⟨bytes, left, hchunk, hwrote, hdone⟩ :=
          ih (byte :: rest) (w.record .write .interrupted)
        refine ⟨bytes, left, hchunk, ?_, hdone⟩
        exact (w.wrote_record .write .interrupted).trans hwrote
      · rename_i taken _
        split
        · refine ⟨[], byte :: rest, rfl, ?_, fun h => by cases h⟩
          exact (w.wrote_record .write (.done 0)).trans (wrote_close _)
        · obtain ⟨bytes, left, hchunk, hwrote, hdone⟩ :=
            ih ((byte :: rest).drop taken) (w.put ((byte :: rest).take taken))
          refine ⟨(byte :: rest).take taken ++ bytes, left, ?_, ?_, hdone⟩
          · rw [List.append_assoc, ← hchunk, List.take_append_drop]
          · exact (w.wrote_put _).trans hwrote
      · rename_i reason _
        refine ⟨[], byte :: rest, rfl, ?_, fun h => by cases h⟩
        exact (w.wrote_record .write (.failed reason)).trans (wrote_close _)

theorem writeChunk_enough (h : (writeChunk fuel chunk w).1 ≠ .running) (hfuel : fuel ≤ fuel') :
    writeChunk fuel' chunk w = writeChunk fuel chunk w := by
  induction fuel generalizing fuel' chunk w with
  | zero =>
    cases chunk with
    | nil =>
      rw [writeChunk, writeChunk]
    | cons byte rest => exact absurd rfl h
  | succ fuel ih =>
    obtain ⟨fuel', rfl⟩ : ∃ more, fuel' = more + 1 := ⟨fuel' - 1, by omega⟩
    have hle : fuel ≤ fuel' := Nat.le_of_succ_le_succ hfuel
    cases chunk with
    | nil => rw [writeChunk, writeChunk]
    | cons byte rest =>
      rw [writeChunk] at h
      rw [writeChunk, writeChunk]
      split at h
      · exact ih h hle
      · split at h
        · rename_i hzero
          rw [if_pos hzero, if_pos hzero]
        · rename_i hsome
          rw [if_neg hsome, if_neg hsome]
          exact ih h hle
      · rfl

theorem writeChunk_answered (h : w.answer .write ≠ .interrupted)
    (hrest : ∀ taken, taken ≠ 0 → ∃ fuel,
      (writeChunk fuel ((byte :: rest).drop taken) (w.put ((byte :: rest).take taken))).1 ≠
        .running) :
    ∃ fuel, (writeChunk fuel (byte :: rest) w).1 ≠ .running := by
  cases hanswer : w.answer .write with
  | interrupted => exact absurd hanswer h
  | failed reason =>
    refine ⟨1, ?_⟩
    rw [writeChunk]
    simp only [hanswer]
    exact Status.noConfusion
  | done taken =>
    by_cases hzero : taken = 0
    · refine ⟨1, ?_⟩
      rw [writeChunk]
      simp only [hanswer, if_pos hzero]
      exact Status.noConfusion
    · obtain ⟨fuel, hfuel⟩ := hrest taken hzero
      refine ⟨fuel + 1, ?_⟩
      rw [writeChunk]
      simp only [hanswer, if_neg hzero]
      exact hfuel

/-- The writes of a chunk come to an end, unless the system interrupts them for ever. -/
theorem writeChunk_returns (chunk : List UInt8)
    (h : ∀ time, ∃ later ≥ time, w.answers later .write ≠ .interrupted) :
    ∃ fuel, (writeChunk fuel chunk w).1 ≠ .running := by
  obtain ⟨n, hn⟩ : ∃ n, n = chunk.length := ⟨_, rfl⟩
  -- the bytes that are left decrease, and between two writes the time to the next one does
  induction n using Nat.strongRecOn generalizing chunk w with
  | ind n ih =>
    cases chunk with
    | nil => exact ⟨0, by simp [writeChunk]⟩
    | cons byte rest =>
      have hshorter : ∀ taken, taken ≠ 0 → ((byte :: rest).drop taken).length < n := by
        intro taken hsome
        rw [hn, List.length_drop, List.length_cons]
        omega
      obtain ⟨later, hlater, hprogress⟩ := h w.trace.length
      obtain ⟨wait, hwait⟩ := Nat.exists_eq_add_of_le hlater
      induction wait generalizing w with
      | zero =>
        rw [Nat.add_zero] at hwait
        subst hwait
        apply writeChunk_answered hprogress
        intro taken hsome
        exact ih _ (hshorter taken hsome) (w := w.put _) _ h rfl
      | succ wait ihwait =>
        by_cases hanswer : w.answer .write = .interrupted
        · have hlength : (w.record .write .interrupted).trace.length = w.trace.length + 1 := by
            rw [record, List.length_append, List.length_singleton]
          obtain ⟨fuel, hfuel⟩ := ihwait (w := w.record .write .interrupted) h
            (by rw [hlength]; omega) hprogress (by rw [hlength]; omega)
          refine ⟨fuel + 1, ?_⟩
          rw [writeChunk]
          simp only [hanswer]
          exact hfuel
        · apply writeChunk_answered hanswer
          intro taken hsome
          exact ih _ (hshorter taken hsome) (w := w.put _) _ h rfl

theorem opened_same (h : w.opened = (result, w')) : Same w w' := by
  have hopens := openFile_opens w
  rw [opened] at h
  split at h
  · cases h
    exact .refl w
  · rw [h] at hopens
    exact hopens.1.toSame

theorem opened_opens (h : w.opened = (none, w')) (hclosed : w.handle = false) :
    Opens w w' ∧ ∃ file, w'.files 0 = some file ∧ w'.handle = true ∧
      w'.currentSize = file.length := by
  obtain ⟨hopens, hopened⟩ := openFile_opens w
  rw [opened, hclosed, if_neg Bool.false_ne_true] at h
  rw [h] at hopens hopened
  exact ⟨hopens, hopened rfl⟩

theorem ready_cases (h : w.ready = (none, w')) :
    w' = w ∧ w.currentSize < w.maxSizeBytes ∨ w.maxSizeBytes ≤ w.currentSize ∧ Rotated w w' := by
  rw [ready] at h
  split at h
  · rename_i hfull
    exact .inr ⟨hfull, rotate_rotated h⟩
  · rename_i hroom
    cases h
    exact .inl ⟨rfl, Nat.lt_of_not_le hroom⟩

theorem ready_room (h : w.ready = (none, w')) (hmax : 1 ≤ w.maxSizeBytes) :
    w'.currentSize < w'.maxSizeBytes ∧ Same w w' := by
  rcases ready_cases h with ⟨rfl, hroom⟩ | ⟨-, hrotated⟩
  · exact ⟨hroom, .refl w'⟩
  · rw [hrotated.currentSize, hrotated.maxSizeBytes]
    exact ⟨hmax, hrotated.toSame⟩

theorem appendLoop_returns (data : List UInt8) (hmax : 1 ≤ w.maxSizeBytes)
    (h : ∀ time, ∃ later ≥ time, w.answers later .write ≠ .interrupted) :
    ∃ enough result, result.1 ≠ .running ∧
      ∀ fuel ≥ enough, ∀ rounds ≥ data.length, appendLoop fuel rounds data w = result := by
  obtain ⟨n, hn⟩ : ∃ n, n = data.length := ⟨_, rfl⟩
  induction n using Nat.strongRecOn generalizing data w with
  | ind n ih =>
    cases data with
    | nil =>
      refine ⟨0, (.done, w), Status.noConfusion, fun _ _ rounds _ => ?_⟩
      cases rounds with
      | zero => rfl
      | succ rounds => rfl
    | cons byte rest =>
      have hsucc : ∀ rounds ≥ (byte :: rest).length, ∃ more, rounds = more + 1 := by
        intro rounds hrounds
        rw [List.length_cons] at hrounds
        exact ⟨rounds - 1, by omega⟩
      cases hready : w.ready with
      | mk result v =>
        cases result with
        | some error =>
          refine ⟨0, (.failed error, v), Status.noConfusion, fun fuel _ rounds hrounds => ?_⟩
          obtain ⟨rounds, rfl⟩ := hsucc rounds hrounds
          rw [appendLoop]
          simp only [hready]
        | none =>
          obtain ⟨hroom, hsame⟩ := ready_room hready hmax
          obtain ⟨chunk, hchunk⟩ : ∃ chunk, chunk =
              (byte :: rest).take (v.maxSizeBytes - v.currentSize) := ⟨_, rfl⟩
          have hshorter : ((byte :: rest).drop chunk.length).length < n := by
            rw [hn, hchunk, List.length_drop, List.length_take, List.length_cons]
            omega
          obtain ⟨few, hfew⟩ := writeChunk_returns (w := v) chunk (hsame.answers ▸ h)
          obtain ⟨status, u, hu⟩ : ∃ status u, writeChunk few chunk v = (status, u) := ⟨_, _, rfl⟩
          obtain ⟨bytes, left, -, hwrote, -⟩ := writeChunk_wrote few chunk v
          rw [hu] at hwrote hfew
          have hsame' := hsame.trans hwrote.toSame
          have hwrite : ∀ fuel ≥ few, writeChunk fuel chunk v = (status, u) := by
            intro fuel hfuel
            rw [← hu]
            apply writeChunk_enough
            · rw [hu]
              exact hfew
            · exact hfuel
          cases status with
          | running => exact absurd rfl hfew
          | failed error =>
            refine ⟨few,
              (.failed error, u), Status.noConfusion, fun fuel hfuel rounds hrounds => ?_⟩
            obtain ⟨rounds, rfl⟩ := hsucc rounds hrounds
            rw [appendLoop]
            simp only [hready, ← hchunk, hwrite fuel hfuel]
          | done =>
            obtain ⟨more, result, hreturned, hmore⟩ := ih _ hshorter
              (w := { u with currentSize := u.currentSize + chunk.length })
              ((byte :: rest).drop chunk.length) (hsame'.maxSizeBytes ▸ hmax)
              (hsame'.answers ▸ h) rfl
            refine ⟨max few more, result, hreturned, fun fuel hfuel rounds hrounds => ?_⟩
            obtain ⟨rounds, rfl⟩ := hsucc rounds hrounds
            have hleft : rounds ≥ ((byte :: rest).drop chunk.length).length := by
              rw [hn] at hshorter
              omega
            rw [appendLoop]
            simp only [hready, ← hchunk, hwrite fuel (Nat.le_trans (Nat.le_max_left _ _) hfuel)]
            exact hmore fuel (Nat.le_trans (Nat.le_max_right _ _) hfuel) rounds hleft

theorem append_returns (data : List UInt8) (hmax : 1 ≤ w.maxSizeBytes)
    (h : ∀ time, ∃ later ≥ time, w.answers later .write ≠ .interrupted) :
    ∃ enough result, result.1 ≠ .running ∧ ∀ fuel ≥ enough, w.append fuel data = result := by
  by_cases hnil : data = []
  · refine ⟨0, (.done, w), Status.noConfusion, fun fuel _ => ?_⟩
    rw [append, if_pos hnil]
  · obtain ⟨result, v, hopened⟩ : ∃ result v, w.opened = (result, v) := ⟨_, _, rfl⟩
    have hsame := opened_same hopened
    cases result with
    | some error =>
      refine ⟨0, (.failed error, v), Status.noConfusion, fun fuel _ => ?_⟩
      rw [append, if_neg hnil, hopened]
    | none =>
      obtain ⟨enough, result, hreturned, henough⟩ :=
        appendLoop_returns (w := v) data (hsame.maxSizeBytes ▸ hmax) (hsame.answers ▸ h)
      refine ⟨max enough data.length, result, hreturned, fun fuel hfuel => ?_⟩
      rw [append, if_neg hnil, hopened]
      apply henough
      · exact Nat.le_trans (Nat.le_max_left _ _) hfuel
      · exact Nat.le_trans (Nat.le_max_right _ _) hfuel

theorem Healthy.writeChunk (h : Healthy w.answers) (fuel : Nat) (chunk : List UInt8)
    (error : String) : (writeChunk fuel chunk w).1 ≠ .failed error := by
  induction fuel generalizing chunk w with
  | zero =>
    cases chunk with
    | nil => exact Status.noConfusion
    | cons byte rest => exact Status.noConfusion
  | succ fuel ih =>
    cases chunk with
    | nil => exact Status.noConfusion
    | cons byte rest =>
      rw [RotatingLogWriter.writeChunk]
      split
      · exact ih (w := w.record .write .interrupted) h _
      · rename_i taken hanswer
        split
        · rename_i hzero
          rw [hzero] at hanswer
          exact absurd hanswer (h.writes _)
        · exact ih (w := w.put _) h _
      · rename_i reason hanswer
        exact absurd hanswer (h.answered _ _ reason)

theorem appendLoop_same (hmax : 1 ≤ w.maxSizeBytes)
    (hdone : appendLoop fuel rounds data w = (.done, w')) : Same w w' := by
  induction rounds generalizing data w with
  | zero =>
    cases data with
    | nil =>
      cases hdone
      exact .refl _
    | cons byte rest => cases hdone
  | succ rounds ih =>
    cases data with
    | nil =>
      cases hdone
      exact .refl _
    | cons byte rest =>
      rw [appendLoop] at hdone
      split at hdone
      · cases hdone
      · rename_i v hready
        have hsame := (ready_room hready hmax).2
        obtain ⟨chunk, hchunk⟩ : ∃ chunk, chunk =
            (byte :: rest).take (v.maxSizeBytes - v.currentSize) := ⟨_, rfl⟩
        obtain ⟨bytes, left, -, hwrote, -⟩ := writeChunk_wrote fuel chunk v
        simp only [← hchunk] at hdone
        split at hdone
        · rename_i u hu
          rw [hu] at hwrote
          have hsame' := hsame.trans hwrote.toSame
          have hrest := ih (hsame'.maxSizeBytes ▸ hmax) hdone
          exact hsame'.trans ⟨hrest.platform, hrest.path, hrest.maxSizeBytes, hrest.archiveCount,
            hrest.answers⟩
        · cases hdone
        · cases hdone

theorem append_same (hmax : 1 ≤ w.maxSizeBytes) (hdone : w.append fuel data = (.done, w')) :
    Same w w' := by
  rw [append] at hdone
  split at hdone
  · cases hdone
    exact .refl w
  · split at hdone
    · cases hdone
    · rename_i v hv
      have hsame := opened_same hv
      exact hsame.trans (appendLoop_same (hsame.maxSizeBytes ▸ hmax) hdone)

theorem Healthy.appendLoop (h : Healthy w.answers) (hvalid : Valid w) (fuel rounds : Nat)
    (data : List UInt8) (error : String) : (appendLoop fuel rounds data w).1 ≠ .failed error := by
  induction rounds generalizing data w with
  | zero =>
    cases data with
    | nil => exact Status.noConfusion
    | cons byte rest => exact Status.noConfusion
  | succ rounds ih =>
    cases data with
    | nil => exact Status.noConfusion
    | cons byte rest =>
      rw [RotatingLogWriter.appendLoop]
      split
      · rename_i reason v hready
        rw [RotatingLogWriter.ready] at hready
        split at hready
        · have hrotate := h.rotate hvalid
          rw [hready] at hrotate
          cases hrotate
        · cases hready
      · rename_i v hready
        have hsame := (ready_room hready hvalid.maxSizeBytes).2
        have hv : Healthy v.answers := hsame.answers ▸ h
        obtain ⟨chunk, hchunk⟩ : ∃ chunk, chunk =
            (byte :: rest).take (v.maxSizeBytes - v.currentSize) := ⟨_, rfl⟩
        obtain ⟨bytes, left, -, hwrote, -⟩ := writeChunk_wrote fuel chunk v
        have hfailed := hv.writeChunk fuel chunk
        simp only [← hchunk]
        split
        · rename_i u hu
          rw [hu] at hwrote
          have hsame' := hsame.trans hwrote.toSame
          have hvalid' := hvalid.of_same hsame'
          apply ih (w := { u with currentSize := u.currentSize + chunk.length })
          · exact hsame'.answers ▸ h
          · exact ⟨hvalid'.path, hvalid'.maxSizeBytes, hvalid'.archiveCount⟩
        · exact Status.noConfusion
        · rename_i reason u hu
          rw [hu] at hfailed
          exact absurd rfl (hfailed reason)

theorem Healthy.append (h : Healthy w.answers) (hvalid : Valid w) (fuel : Nat)
    (data : List UInt8) (error : String) : (w.append fuel data).1 ≠ .failed error := by
  have hopen := h.openFile hvalid
  rw [RotatingLogWriter.append]
  split
  · exact Status.noConfusion
  · split
    · rename_i reason v hv
      rw [opened] at hv
      split at hv
      · cases hv
      · rw [hv] at hopen
        cases hopen
    · rename_i v hv
      have hsame := opened_same hv
      exact Healthy.appendLoop (hsame.answers ▸ h) (hvalid.of_same hsame) fuel fuel data error

/-- The log file holds what was written since the last rotation, and the archives hold the full
files before it. -/
structure Stored (w : RotatingLogWriter) (written : List UInt8) : Prop where
  lower : w.rotations * w.maxSizeBytes ≤ written.length
  upper : written.length ≤ (w.rotations + 1) * w.maxSizeBytes
  current : (w.files 0).getD [] = written.drop (w.rotations * w.maxSizeBytes)
  archives : ∀ index, 1 ≤ index → w.files index =
    if index ≤ min w.archiveCount.toNat w.rotations then
      some ((written.drop ((w.rotations - index) * w.maxSizeBytes)).take w.maxSizeBytes)
    else none
  counter : w.handle = true → w.files 0 ≠ none ∧ w.currentSize = ((w.files 0).getD []).length

theorem Stored.length_current (h : Stored w written) :
    ((w.files 0).getD []).length = written.length - w.rotations * w.maxSizeBytes := by
  rw [h.current, List.length_drop]

theorem Stored.opens (h : Stored w written) (hopens : Opens w w')
    (hcounter : w'.handle = true →
      w'.files 0 ≠ none ∧ w'.currentSize = ((w'.files 0).getD []).length) : Stored w' written where
  lower := by
    rw [hopens.rotations, hopens.maxSizeBytes]
    exact h.lower
  upper := by
    rw [hopens.rotations, hopens.maxSizeBytes]
    exact h.upper
  current := by
    rw [hopens.rotations, hopens.maxSizeBytes, ← h.current]
    rcases hopens.current with heq | ⟨hnone, hnew⟩
    · rw [heq]
    · rw [hnone, hnew]
      rfl
  archives := by
    intro index hindex
    rw [hopens.archives index hindex, hopens.rotations, hopens.maxSizeBytes, hopens.archiveCount]
    exact h.archives index hindex
  counter := hcounter

theorem Stored.close (h : Stored w written) : Stored w.close written := by
  apply h.opens
  · exact ⟨w.same_close, fun _ _ => rfl, .inl rfl, rfl⟩
  · intro hhandle
    cases hhandle

theorem Stored.rotated (h : Stored w written) (hhandle : w.handle = true)
    (hfull : w.maxSizeBytes ≤ w.currentSize) (hr : Rotated w w') : Stored w' written := by
  obtain ⟨hfile, hcounter⟩ := h.counter hhandle
  rw [h.length_current] at hcounter
  have hlength : written.length = (w.rotations + 1) * w.maxSizeBytes := by
    have hlower := h.lower
    have hupper := h.upper
    rw [Nat.succ_mul] at hupper ⊢
    omega
  have htop : ∀ last, w.archiveCount.toNat = last + 1 → w.files last = none →
      w.files w.archiveCount.toNat = none := by
    intro last hlast hnone
    cases last with
    | zero => exact absurd hnone hfile
    | succ last =>
      rw [h.archives _ (Nat.succ_pos last)] at hnone
      rw [h.archives _ (by omega)]
      split at hnone
      · cases hnone
      · rw [if_neg (by omega)]
  obtain ⟨hlow, hhigh⟩ := hr.archives htop
  constructor
  · exact Nat.le_of_eq (by rw [hr.rotations, hr.maxSizeBytes, hlength])
  · rw [hr.rotations, hr.maxSizeBytes, hlength]
    exact Nat.mul_le_mul_right _ (Nat.le_succ _)
  · have hnothing : written.drop ((w.rotations + 1) * w.maxSizeBytes) = [] := by
      rw [← hlength, List.drop_length]
    rw [hr.current, hr.rotations, hr.maxSizeBytes, hnothing, Option.getD_some]
  · intro index hindex
    rw [hr.rotations, hr.maxSizeBytes, hr.archiveCount]
    obtain ⟨before, rfl⟩ : ∃ before, index = before + 1 := ⟨index - 1, by omega⟩
    rw [Nat.add_sub_add_right]
    by_cases hmoved : before < w.archiveCount.toNat
    · rw [hlow before hmoved]
      cases before with
      | zero =>
        obtain ⟨file, hsome⟩ := Option.ne_none_iff_exists'.1 hfile
        have hcurrent := h.current
        rw [hsome, Option.getD_some] at hcurrent
        rw [hsome, if_pos (by omega), Nat.sub_zero, hcurrent, List.take_of_length_le]
        rw [List.length_drop, hlength, Nat.succ_mul]
        omega
      | succ before =>
        rw [h.archives _ (Nat.succ_pos before)]
        by_cases hold : before + 1 ≤ min w.archiveCount.toNat w.rotations
        · rw [if_pos hold, if_pos (by omega)]
        · rw [if_neg hold, if_neg (by omega)]
    · rw [hhigh _ (by omega), h.archives _ (Nat.succ_pos before), if_neg (by omega),
        if_neg (by omega)]
  · intro _
    rw [hr.current, hr.currentSize]
    exact ⟨Option.some_ne_none _, rfl⟩

theorem Stored.wrote (h : Stored w written) (hhandle : w.handle = true)
    (hwrote : Wrote w w' bytes) (hroom : w.currentSize + bytes.length ≤ w.maxSizeBytes) :
    Stored { w' with currentSize := w.currentSize + bytes.length } (written ++ bytes) := by
  obtain ⟨hfile, hcounter⟩ := h.counter hhandle
  have hlength := h.length_current
  rw [← hcounter] at hlength
  have hcurrent : w'.files 0 = some ((w.files 0).getD [] ++ bytes) := by
    rcases hwrote.files with ⟨rfl, hfiles⟩ | hfiles
    · obtain ⟨file, hsome⟩ := Option.ne_none_iff_exists'.1 hfile
      rw [hfiles, hsome, Option.getD_some, List.append_nil]
    · rw [hfiles, Function.update_self]
  have harchives : ∀ index, 1 ≤ index → w'.files index = w.files index := by
    intro index hindex
    rcases hwrote.files with ⟨rfl, hfiles⟩ | hfiles
    · rw [hfiles]
    · rw [hfiles, Function.update_of_ne (Nat.ne_of_gt hindex)]
  have hlower := h.lower
  constructor
  · simp only [hwrote.rotations, hwrote.maxSizeBytes, List.length_append]
    omega
  · simp only [hwrote.rotations, hwrote.maxSizeBytes, List.length_append]
    rw [Nat.succ_mul]
    omega
  · simp only [hwrote.rotations, hwrote.maxSizeBytes, hcurrent, Option.getD_some]
    rw [h.current, List.drop_append_of_le_length hlower]
  · intro index hindex
    simp only [hwrote.rotations, hwrote.maxSizeBytes, hwrote.archiveCount,
      harchives index hindex]
    rw [h.archives index hindex]
    split
    · rename_i hle
      -- an archive ends before what is written now
      have hend : (w.rotations - index) * w.maxSizeBytes + w.maxSizeBytes ≤ written.length := by
        rw [← Nat.succ_mul]
        exact Nat.le_trans (Nat.mul_le_mul_right _ (by omega)) hlower
      rw [List.drop_append_of_le_length (by omega), List.take_append_of_le_length]
      rw [List.length_drop]
      omega
    · rfl
  · intro _
    rw [hcurrent]
    refine ⟨Option.some_ne_none _, ?_⟩
    rw [Option.getD_some, List.length_append, hcounter]

theorem Stored.ready (h : Stored w written) (hhandle : w.handle = true)
    (hready : w.ready = (none, w')) : Stored w' written ∧ w'.handle = true := by
  rcases ready_cases hready with ⟨rfl, -⟩ | ⟨hfull, hrotated⟩
  · exact ⟨h, hhandle⟩
  · exact ⟨h.rotated hhandle hfull hrotated, hrotated.handle⟩

theorem Stored.appendLoop (h : Stored w written) (hhandle : w.handle = true)
    (hmax : 1 ≤ w.maxSizeBytes)
    (hdone : appendLoop fuel rounds data w = (.done, w')) : Stored w' (written ++ data) := by
  induction rounds generalizing data w written with
  | zero =>
    cases data with
    | nil =>
      cases hdone
      rw [List.append_nil]
      exact h
    | cons byte rest => cases hdone
  | succ rounds ih =>
    cases data with
    | nil =>
      cases hdone
      rw [List.append_nil]
      exact h
    | cons byte rest =>
      rw [RotatingLogWriter.appendLoop] at hdone
      split at hdone
      · cases hdone
      · rename_i v hready
        obtain ⟨hv, hvhandle⟩ := h.ready hhandle hready
        obtain ⟨hroom, hsame⟩ := ready_room hready hmax
        obtain ⟨chunk, hchunk⟩ : ∃ chunk, chunk =
            (byte :: rest).take (v.maxSizeBytes - v.currentSize) := ⟨_, rfl⟩
        have htake : (byte :: rest).take chunk.length = chunk := by
          rw [hchunk, List.length_take, ← List.take_take, List.take_length]
        have hfits : v.currentSize + chunk.length ≤ v.maxSizeBytes := by
          rw [hchunk, List.length_take]
          omega
        obtain ⟨bytes, left, hbytes, hwrote, hall⟩ := writeChunk_wrote fuel chunk v
        simp only [← hchunk] at hdone
        split at hdone
        · rename_i u hu
          rw [hu] at hwrote hall
          obtain ⟨rfl, huhandle, husize⟩ := hall rfl
          rw [List.append_nil] at hbytes
          subst hbytes
          have hstored := hv.wrote hvhandle hwrote hfits
          rw [← husize] at hstored
          have hsame' := hsame.trans hwrote.toSame
          have hrest := ih hstored (huhandle.trans hvhandle) (hsame'.maxSizeBytes ▸ hmax) hdone
          rw [List.append_assoc] at hrest
          nth_rewrite 1 [← htake] at hrest
          rw [List.take_append_drop] at hrest
          exact hrest
        · cases hdone
        · cases hdone

theorem Stored.opened (h : Stored w written) (hopened : w.opened = (none, w')) :
    Stored w' written ∧ w'.handle = true := by
  cases hhandle : w.handle with
  | true =>
    rw [RotatingLogWriter.opened, hhandle, if_pos rfl] at hopened
    cases hopened
    exact ⟨h, hhandle⟩
  | false =>
    obtain ⟨hopens, file, hfile, hopen, hsize⟩ := opened_opens hopened hhandle
    refine ⟨h.opens hopens fun _ => ?_, hopen⟩
    rw [hfile, Option.getD_some]
    exact ⟨Option.some_ne_none _, hsize⟩

theorem Stored.append (h : Stored w written) (hmax : 1 ≤ w.maxSizeBytes)
    (hdone : w.append fuel data = (.done, w')) : Stored w' (written ++ data) := by
  rw [RotatingLogWriter.append] at hdone
  split at hdone
  · rename_i hnil
    cases hdone
    rw [hnil, List.append_nil]
    exact h
  · split at hdone
    · cases hdone
    · rename_i v hv
      obtain ⟨hstored, hhandle⟩ := h.opened hv
      exact hstored.appendLoop hhandle ((opened_same hv).maxSizeBytes ▸ hmax) hdone

theorem Stored.openFile (h : Stored w written) (hopen : w.openFile = (none, w')) :
    Stored w' written ∧ Same w w' := by
  obtain ⟨hopens, hopened⟩ := openFile_opens w
  rw [hopen] at hopens hopened
  obtain ⟨file, hfile, -, hsize⟩ := hopened rfl
  refine ⟨h.opens hopens fun _ => ?_, hopens.toSame⟩
  rw [hfile, Option.getD_some]
  exact ⟨Option.some_ne_none _, hsize⟩

/-- The concatenation of `path.n`, …, `path.1` and the log file. -/
def concatenated (w : RotatingLogWriter) : Nat → List UInt8
  | 0 => (w.files 0).getD []
  | index + 1 => (w.files (index + 1)).getD [] ++ w.concatenated index

def contents (w : RotatingLogWriter) : List UInt8 := w.concatenated w.archiveCount.toNat

theorem Stored.concatenated (h : Stored w written) (n : Nat) :
    w.concatenated n = written.drop
      ((w.rotations - min n (min w.archiveCount.toNat w.rotations)) * w.maxSizeBytes) := by
  induction n with
  | zero =>
    rw [RotatingLogWriter.concatenated, h.current, Nat.zero_min, Nat.sub_zero]
  | succ n ih =>
    rw [RotatingLogWriter.concatenated, ih, h.archives _ (Nat.succ_pos n)]
    by_cases hexists : n + 1 ≤ min w.archiveCount.toNat w.rotations
    · have hstep : w.rotations - n = w.rotations - (n + 1) + 1 := by omega
      rw [if_pos hexists, Option.getD_some, Nat.min_eq_left hexists,
        Nat.min_eq_left (Nat.le_of_succ_le hexists), hstep, Nat.succ_mul, ← List.drop_drop,
        List.take_append_drop]
    · have hall : min w.archiveCount.toNat w.rotations ≤ n := by omega
      rw [if_neg hexists, Option.getD_none, List.nil_append, Nat.min_eq_right hall,
        Nat.min_eq_right (Nat.le_succ_of_le hall)]

/-- The files of a writer with what was written: nothing is missing but whole files at the front,
and these only after more rotations than there are archives. -/
structure Complete (w : RotatingLogWriter) (written : List UInt8) : Prop where
  suffix : ∃ missing, written = missing ++ w.contents ∧ w.maxSizeBytes ∣ missing.length ∧
    (w.rotations ≤ w.archiveCount.toNat → missing = [])
  sizes : ∀ index file, w.files index = some file → file.length ≤ w.maxSizeBytes ∧
    (1 ≤ index → file.length = w.maxSizeBytes)
  contiguous : ∀ index, 1 ≤ index → w.files (index + 1) ≠ none → w.files index ≠ none
  archives : ∀ index, w.archiveCount.toNat < index → w.files index = none

theorem Stored.complete (h : Stored w written) : Complete w written where
  suffix := by
    have hlower := h.lower
    have hcontents := h.concatenated w.archiveCount.toNat
    refine ⟨written.take
      ((w.rotations - min w.archiveCount.toNat w.rotations) * w.maxSizeBytes), ?_, ?_, ?_⟩
    · rw [contents, hcontents, ← Nat.min_assoc, Nat.min_self, List.take_append_drop]
    · rw [List.length_take, Nat.min_eq_left]
      · exact Nat.dvd_mul_left _ _
      · exact Nat.le_trans (Nat.mul_le_mul_right _ (Nat.sub_le _ _)) hlower
    · intro hfew
      rw [Nat.min_eq_right hfew, Nat.sub_self, Nat.zero_mul, List.take_zero]
  sizes := by
    intro index file hfile
    have hlower := h.lower
    have hupper := h.upper
    rw [Nat.succ_mul] at hupper
    cases index with
    | zero =>
      have hlength := h.length_current
      rw [hfile, Option.getD_some] at hlength
      exact ⟨by omega, fun hpos => absurd hpos (Nat.not_succ_le_zero 0)⟩
    | succ index =>
      rw [h.archives _ (Nat.succ_pos index)] at hfile
      split at hfile
      · rename_i hle
        cases hfile
        have hend : (w.rotations - (index + 1)) * w.maxSizeBytes + w.maxSizeBytes ≤
            written.length := by
          rw [← Nat.succ_mul]
          exact Nat.le_trans (Nat.mul_le_mul_right _ (by omega)) hlower
        have hlength : ((written.drop ((w.rotations - (index + 1)) * w.maxSizeBytes)).take
            w.maxSizeBytes).length = w.maxSizeBytes := by
          rw [List.length_take, List.length_drop]
          omega
        exact ⟨Nat.le_of_eq hlength, fun _ => hlength⟩
      · cases hfile
  contiguous := by
    intro index hindex hnext
    rw [h.archives _ (Nat.succ_pos index)] at hnext
    rw [h.archives _ hindex]
    split at hnext
    · rw [if_pos (by omega)]
      exact Option.some_ne_none _
    · exact absurd rfl hnext
  archives := by
    intro index hindex
    rw [h.archives index (by omega), if_neg (by omega)]

inductive Call where
  | append (data : List UInt8)
  | openFile
  | close
  deriving DecidableEq, Repr

/-- A call that returns true; an append may make the given number of writes to a file. -/
def Call.step (fuel : Nat) (w : RotatingLogWriter) : Call → Option RotatingLogWriter
  | append data =>
    match w.append fuel data with
    | (.done, w) => some w
    | (.running, _) | (.failed _, _) => none
  | openFile =>
    match w.openFile with
    | (none, w) => some w
    | (some _, _) => none
  | close => some w.close

def Call.data : Call → List UInt8
  | append data => data
  | openFile | close => []

def run (fuel : Nat) : List Call → RotatingLogWriter → Option RotatingLogWriter
  | [], w => some w
  | call :: rest, w => (call.step fuel w).bind (run fuel rest)

/-- A new writer for a path at which there are no files. -/
def created (platform : Platform) (path : String) (maxSizeBytes archiveCount : Nat)
    (answers : Nat → SystemCall → Answer) : RotatingLogWriter where
  platform := platform
  path := path
  maxSizeBytes := maxSizeBytes
  archiveCount := archiveCount
  answers := answers

theorem stored_created (platform : Platform) (path : String) (maxSizeBytes archiveCount : Nat)
    (answers : Nat → SystemCall → Answer) :
    Stored (created platform path maxSizeBytes archiveCount answers) [] where
  lower := by
    rw [created, Nat.zero_mul]
    exact Nat.le_refl 0
  upper := Nat.zero_le _
  current := by
    rw [List.drop_nil]
    rfl
  archives := by
    intro index hindex
    have hnone : ¬ index ≤ min ((archiveCount : Int).toNat) 0 := by omega
    exact (if_neg hnone).symm
  counter := by
    intro h
    cases h

theorem Stored.step {call : Call} (h : Stored w written) (hmax : 1 ≤ w.maxSizeBytes)
    (hstep : call.step fuel w = some w') : Stored w' (written ++ call.data) ∧ Same w w' := by
  cases call with
  | append data =>
    rw [Call.step] at hstep
    split at hstep
    · rename_i v hv
      cases hstep
      exact ⟨h.append hmax hv, append_same hmax hv⟩
    · cases hstep
    · cases hstep
  | openFile =>
    rw [Call.step] at hstep
    split at hstep
    · rename_i v hv
      cases hstep
      rw [Call.data, List.append_nil]
      exact h.openFile hv
    · cases hstep
  | close =>
    cases hstep
    rw [Call.data, List.append_nil]
    exact ⟨h.close, w.same_close⟩

theorem Stored.run (h : Stored w written) (hmax : 1 ≤ w.maxSizeBytes)
    (hrun : run fuel calls w = some w') :
    Stored w' (written ++ calls.flatMap Call.data) ∧ Same w w' := by
  induction calls generalizing w written with
  | nil =>
    cases hrun
    rw [List.flatMap_nil, List.append_nil]
    exact ⟨h, .refl _⟩
  | cons call rest ih =>
    rw [RotatingLogWriter.run, Option.bind_eq_some_iff] at hrun
    obtain ⟨v, hstep, hrest⟩ := hrun
    obtain ⟨hstored, hsame⟩ := h.step hmax hstep
    obtain ⟨hall, hsame'⟩ := ih hstored (hsame.maxSizeBytes ▸ hmax) hrest
    rw [List.flatMap_cons, ← List.append_assoc]
    exact ⟨hall, hsame.trans hsame'⟩

theorem Healthy.step (h : Healthy w.answers) (hvalid : Valid w) (call : Call) :
    ∃ enough w', Same w w' ∧ ∀ fuel ≥ enough, call.step fuel w = some w' := by
  cases call with
  | append data =>
    obtain ⟨enough, ⟨status, w'⟩, hreturned, henough⟩ :=
      append_returns data hvalid.maxSizeBytes h.progress
    have hfailed := h.append hvalid enough data
    have hlast := henough enough (Nat.le_refl _)
    rw [hlast] at hfailed
    cases status with
    | running => exact absurd rfl hreturned
    | failed error => exact absurd rfl (hfailed error)
    | done =>
      refine ⟨enough, w', append_same hvalid.maxSizeBytes hlast, fun fuel hfuel => ?_⟩
      rw [Call.step, henough fuel hfuel]
  | openFile =>
    have hopen := h.openFile hvalid
    have hopens := (openFile_opens w).1
    obtain ⟨result, v, hv⟩ : ∃ result v, w.openFile = (result, v) := ⟨_, _, rfl⟩
    rw [hv] at hopen hopens
    cases hopen
    exact ⟨0, v, hopens.toSame, fun fuel _ => by rw [Call.step, hv]⟩
  | close => exact ⟨0, w.close, w.same_close, fun _ _ => rfl⟩

theorem Healthy.run (h : Healthy w.answers) (hvalid : Valid w) (calls : List Call) :
    ∃ enough w', ∀ fuel ≥ enough, run fuel calls w = some w' := by
  induction calls generalizing w with
  | nil => exact ⟨0, w, fun _ _ => rfl⟩
  | cons call rest ih =>
    obtain ⟨few, v, hsame, hfew⟩ := h.step hvalid call
    obtain ⟨more, w', hmore⟩ := ih (hsame.answers ▸ h) (hvalid.of_same hsame)
    refine ⟨max few more, w', fun fuel hfuel => ?_⟩
    rw [RotatingLogWriter.run, hfew fuel (Nat.le_trans (Nat.le_max_left _ _) hfuel)]
    exact hmore fuel (Nat.le_trans (Nat.le_max_right _ _) hfuel)

/-- Whatever is appended, closed and opened again on a system without failures: the files hold the
end of it and miss nothing but whole files, every append ends, and every call returns true. -/
theorem run_complete (platform : Platform) (path : String) (maxSizeBytes archiveCount : Nat)
    (hmax : 1 ≤ maxSizeBytes) (answers : Nat → SystemCall → Answer) (hhealthy : Healthy answers)
    (calls : List Call) :
    let w := created platform path maxSizeBytes archiveCount answers
    (∀ fuel w', run fuel calls w = some w' → Complete w' (calls.flatMap Call.data)) ∧
      (∀ fuel w' data, run fuel calls w = some w' →
        ∃ enough result, result.1 ≠ .running ∧ ∀ more ≥ enough, w'.append more data = result) ∧
      (path ≠ "" → ∃ enough w', ∀ fuel ≥ enough, run fuel calls w = some w') := by
  intro w
  have hnew := stored_created platform path maxSizeBytes archiveCount answers
  refine ⟨?_, ?_, ?_⟩
  · intro fuel w' hrun
    exact (hnew.run hmax hrun).1.complete
  · intro fuel w' data hrun
    have hsame := (hnew.run hmax hrun).2
    apply append_returns
    · exact hsame.maxSizeBytes ▸ hmax
    · exact hsame.answers ▸ hhealthy.progress
  · intro hpath
    exact hhealthy.run ⟨hpath, hmax, Int.natCast_nonneg _⟩ calls

theorem healthy_one : Healthy fun _ _ => .done 1 where
  answered := by
    intro _ _ _ h
    cases h
  uninterrupted := by
    intro _ _ _ h
    cases h
  writes := by
    intro _ h
    cases h
  progress := by
    intro time
    refine ⟨time, Nat.le_refl time, ?_⟩
    intro h
    cases h

theorem run_complete_one : ∃ fuel w',
    run fuel [.append [1, 2, 3], .close, .append [4, 5]]
      (created .linux "app.log" 2 1 fun _ _ => .done 1) = some w' ∧
      Complete w' [1, 2, 3, 4, 5] := by
  obtain ⟨fuel, w', hrun⟩ := (run_complete .linux "app.log" 2 1 (by decide) _ healthy_one
    [.append [1, 2, 3], .close, .append [4, 5]]).2.2 (by decide)
  exact ⟨fuel, w', hrun fuel (Nat.le_refl _), (run_complete .linux "app.log" 2 1 (by decide) _
    healthy_one [.append [1, 2, 3], .close, .append [4, 5]]).1 fuel w' (hrun fuel (Nat.le_refl _))⟩

end RotatingLogWriter

end PmTiny
