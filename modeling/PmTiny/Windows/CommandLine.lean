import Mathlib.Data.List.Basic
import Mathlib.Data.List.TakeWhile
import PmTiny.Lib.ArgvQuoting

namespace PmTiny.Windows
open ArgvQuoting
set_option autoImplicit true

def byteMarks : Marks UInt8 where
  nul := 0
  space := 0x20
  tab := 0x09
  quote := 0x22
  slash := 0x5c
  distinct := by decide

/-- The same letters in UTF-16. -/
def unitMarks : Marks UInt16 where
  nul := 0
  space := 0x20
  tab := 0x09
  quote := 0x22
  slash := 0x5c
  distinct := by decide

/-- The loop over an argument: what has been written, and the slashes that have been read since. -/
def quoteStep (acc : List UInt8 × Nat) (ch : UInt8) : List UInt8 × Nat :=
  if ch = 0x5c then (acc.1, acc.2 + 1)
  else if ch = 0x22 then (acc.1 ++ List.replicate (acc.2 * 2 + 1) 0x5c ++ [ch], 0)
  else (acc.1 ++ List.replicate acc.2 0x5c ++ [ch], 0)

def quoteWindowsArgument (argument : List UInt8) : List UInt8 :=
  if argument ≠ [] ∧ argument.any (· ∈ [0x20, 0x09, 0x22]) = false then argument
  else
    let written := argument.foldl quoteStep ([0x22], 0)
    written.1 ++ List.replicate (written.2 * 2) 0x5c ++ [0x22]

/-- `to_mutable_command_line`; the conversion to UTF-16 fails when it throws. -/
def toMutableCommandLine (utf8ToWide : List UInt8 → Option (List UInt16)) (executable : List UInt8)
    (args : List (List UInt8)) : Option (List UInt16) :=
  let command := args.foldl (fun command arg => command ++ 0x20 :: quoteWindowsArgument arg)
    (quoteWindowsArgument executable)
  (utf8ToWide command).map fun wide => wide ++ [0]

/-- What is assumed of the conversion, for texts without a NUL: an ASCII character stays what it is
wherever it stands, no other one becomes an ASCII character, and different texts stay different. -/
structure KeepsAscii (utf8ToWide : List UInt8 → Option (List UInt16)) : Prop where
  empty : utf8ToWide [] = some []
  ascii : ∀ before c after wide, 0 ∉ before → 0 ∉ after → c ≠ 0 → c < 0x80 →
    (utf8ToWide (before ++ c :: after) = some wide ↔ ∃ front back,
      utf8ToWide before = some front ∧ utf8ToWide after = some back ∧
        wide = front ++ c.toUInt16 :: back)
  other : ∀ text wide, (∀ c ∈ text, 0x80 ≤ c) → utf8ToWide text = some wide →
    ∀ unit ∈ wide, 0x80 ≤ unit
  injective : ∀ text text' wide, 0 ∉ text → 0 ∉ text' → utf8ToWide text = some wide →
    utf8ToWide text' = some wide → text = text'

theorem foldl_quoteStep (argument written : List UInt8) (slashes : Nat) :
    (argument.foldl quoteStep (written, slashes)).1 ++
        List.replicate ((argument.foldl quoteStep (written, slashes)).2 * 2) 0x5c =
      written ++ byteMarks.quoteLoop slashes argument := by
  induction argument generalizing written slashes with
  | nil => rfl
  | cons ch argument ih =>
    rw [List.foldl_cons, quoteStep, Marks.quoteLoop]
    by_cases hslash : ch = byteMarks.slash
    · have hbyte : ch = 0x5c := hslash
      rw [if_pos hslash, if_pos hbyte]
      exact ih written (slashes + 1)
    · have hbyte : ¬ ch = 0x5c := hslash
      rw [if_neg hslash, if_neg hbyte]
      by_cases hquote : ch = byteMarks.quote
      · have hbyte : ch = 0x22 := hquote
        rw [if_pos hquote, if_pos hbyte, ih, List.append_assoc, List.append_assoc,
          List.singleton_append]
        rfl
      · have hbyte : ¬ ch = 0x22 := hquote
        rw [if_neg hquote, if_neg hbyte, ih, List.append_assoc, List.append_assoc,
          List.singleton_append]
        rfl

theorem quoteWindowsArgument_eq (argument : List UInt8) :
    quoteWindowsArgument argument = byteMarks.quoteItem argument := by
  have hplain : byteMarks.Plain argument ↔
      argument ≠ [] ∧ argument.any (· ∈ [0x20, 0x09, 0x22]) = false := by
    rw [List.any_eq_false]
    apply and_congr_right'
    apply forall₂_congr
    intro ch _
    rw [decide_eq_true_iff, List.mem_cons, List.mem_cons, List.mem_singleton, Marks.Blank, not_or,
      not_or, not_or, and_assoc]
    rfl
  rw [quoteWindowsArgument, Marks.quoteItem]
  split
  · rename_i h
    rw [if_pos (hplain.2 h)]
  · rename_i h
    rw [if_neg fun h' => h (hplain.1 h')]
    dsimp only
    rw [foldl_quoteStep]
    rfl

theorem command_eq (executable : List UInt8) (args : List (List UInt8)) :
    args.foldl (fun command arg => command ++ 0x20 :: quoteWindowsArgument arg)
      (quoteWindowsArgument executable) = byteMarks.commandLine executable args := by
  have hfoldl (front : List UInt8) :
      args.foldl (fun command arg => command ++ 0x20 :: quoteWindowsArgument arg) front =
        front ++ args.flatMap fun arg => byteMarks.space :: byteMarks.quoteItem arg := by
    induction args generalizing front with
    | nil => rw [List.foldl_nil, List.flatMap_nil, List.append_nil]
    | cons arg args ih =>
      rw [List.foldl_cons, ih, List.flatMap_cons, quoteWindowsArgument_eq, List.append_assoc]
      rfl
  rw [hfoldl, quoteWindowsArgument_eq, Marks.commandLine]

def Leads (text : List UInt8) : Prop := ∀ c ∈ text.head?, c ≠ 0 ∧ c < 0x80

/-- A text without a NUL, cut into its ASCII characters and what stands between them. -/
inductive Cut : List UInt8 → Prop where
  | nil : Cut []
  | ascii (hc : c ≠ 0) (hascii : c < 0x80) (hrest : 0 ∉ rest) (h : Cut rest) : Cut (c :: rest)
  | run (hne : run ≠ []) (hrun : ∀ c ∈ run, 0x80 ≤ c) (hlead : Leads rest) (hrest : 0 ∉ rest)
      (h : Cut rest) : Cut (run ++ rest)

theorem cut (hnul : 0 ∉ text) : Cut text := by
  induction hn : text.length using Nat.strongRecOn generalizing text with
  | ind n ih =>
    cases text with
    | nil => exact .nil
    | cons c rest =>
      have hc : c ≠ 0 := by
        rintro rfl
        exact hnul List.mem_cons_self
      have hrest : 0 ∉ rest := fun hmem => hnul (List.mem_cons_of_mem _ hmem)
      by_cases hascii : c < 0x80
      · apply Cut.ascii hc hascii hrest
        apply ih rest.length _ hrest rfl
        rw [← hn]
        exact Nat.lt_succ_self _
      · have hother : 0x80 ≤ c := UInt8.not_lt.1 hascii
        have hsplit : c :: rest.takeWhile (fun c => 0x80 ≤ c) ++
            rest.dropWhile (fun c => 0x80 ≤ c) = c :: rest := by
          rw [List.cons_append, List.takeWhile_append_dropWhile]
        have hafter : 0 ∉ rest.dropWhile fun c => 0x80 ≤ c :=
          fun hmem => hrest ((List.dropWhile_suffix _).subset hmem)
        rw [← hsplit]
        refine .run (List.cons_ne_nil _ _) ?_ ?_ hafter (ih _ ?_ hafter rfl)
        · intro d hd
          rcases List.mem_cons.1 hd with rfl | hd
          · exact hother
          · have hkept := List.mem_takeWhile_imp hd
            exact of_decide_eq_true hkept
        · intro d hd
          have hascii := List.head?_dropWhile_not (fun c : UInt8 => decide (0x80 ≤ c)) rest
          rw [hd] at hascii
          constructor
          · rintro rfl
            exact hafter (List.mem_of_mem_head? hd)
          · exact UInt8.not_le.1 (of_decide_eq_false hascii)
        · rw [← hn]
          exact Nat.lt_succ_of_le (List.dropWhile_suffix _).length_le

theorem nul_not_mem_quoteLoop (hnul : 0 ∉ text) (slashes : Nat) :
    0 ∉ byteMarks.quoteLoop slashes text := by
  intro hmem
  rcases Marks.mem_quoteLoop hmem with hslash | hmem
  · exact absurd hslash (by decide)
  · exact hnul hmem

theorem leads_quoteLoop (hlead : Leads text) : Leads (byteMarks.quoteLoop 0 text) := by
  cases text with
  | nil =>
    intro c hc
    cases hc
  | cons c rest =>
    rw [Marks.quoteLoop]
    split
    · obtain ⟨rest', hrest'⟩ := Marks.quoteLoop_succ (m := byteMarks) 0 rest
      rw [hrest']
      intro d hd
      cases hd
      exact ⟨by decide, by decide⟩
    · split
      · intro d hd
        cases hd
        exact ⟨by decide, by decide⟩
      · exact hlead

theorem nul_not_mem_quoteItem (hnul : 0 ∉ text) : 0 ∉ byteMarks.quoteItem text := by
  rw [Marks.quoteItem]
  split
  · exact hnul
  · intro hmem
    rcases List.mem_cons.1 hmem with hzero | hmem
    · exact absurd hzero (by decide)
    · rcases List.mem_append.1 hmem with hmem | hzero
      · exact nul_not_mem_quoteLoop hnul 0 hmem
      · exact absurd (List.mem_singleton.1 hzero) (by decide)

def quotedArguments (args : List (List UInt8)) : List UInt8 :=
  args.flatMap fun arg => byteMarks.space :: byteMarks.quoteItem arg

theorem nul_not_mem_arguments (hargs : ∀ arg ∈ args, 0 ∉ arg) : 0 ∉ quotedArguments args := by
  intro hmem
  obtain ⟨arg, harg, hmem⟩ := List.mem_flatMap.1 hmem
  rcases List.mem_cons.1 hmem with hzero | hmem
  · exact absurd hzero (by decide)
  · exact nul_not_mem_quoteItem (hargs arg harg) hmem

section KeepsAscii

variable {utf8ToWide : List UInt8 → Option (List UInt16)} (h : KeepsAscii utf8ToWide)

include h

theorem KeepsAscii.cons (hc : c ≠ 0) (hascii : c < 0x80) (hrest : 0 ∉ rest) :
    utf8ToWide (c :: rest) = some wide ↔
      ∃ back, utf8ToWide rest = some back ∧ wide = c.toUInt16 :: back := by
  refine (h.ascii [] c rest wide List.not_mem_nil hrest hc hascii).trans ?_
  constructor
  · rintro ⟨front, back, hfront, hback, hwide⟩
    rw [h.empty] at hfront
    cases hfront
    exact ⟨back, hback, hwide⟩
  · rintro ⟨back, hback, hwide⟩
    exact ⟨[], back, h.empty, hback, hwide⟩

theorem KeepsAscii.append (hfront : 0 ∉ before) (hlead : Leads after) (hback : 0 ∉ after) :
    utf8ToWide (before ++ after) = some wide ↔ ∃ front back,
      utf8ToWide before = some front ∧ utf8ToWide after = some back ∧ wide = front ++ back := by
  cases after with
  | nil =>
    rw [List.append_nil]
    constructor
    · exact fun hwide => ⟨wide, [], hwide, h.empty, (List.append_nil wide).symm⟩
    · rintro ⟨front, back, hwide, hempty, rfl⟩
      rw [h.empty] at hempty
      cases hempty
      rw [hwide, List.append_nil]
  | cons c rest =>
    obtain ⟨hc, hascii⟩ := hlead c rfl
    have hrest : 0 ∉ rest := fun hmem => hback (List.mem_cons_of_mem _ hmem)
    rw [h.ascii before c rest wide hfront hrest hc hascii]
    constructor
    · rintro ⟨front, back, hbefore, hafter, hwide⟩
      exact ⟨front, _, hbefore, (h.cons hc hascii hrest).2 ⟨back, hafter, rfl⟩, hwide⟩
    · rintro ⟨front, back, hbefore, hafter, hwide⟩
      obtain ⟨back', hafter, hback'⟩ := (h.cons hc hascii hrest).1 hafter
      rw [hback'] at hwide
      exact ⟨front, back', hbefore, hafter, hwide⟩

theorem KeepsAscii.replicate (count : Nat) (hrest : 0 ∉ rest) :
    utf8ToWide (List.replicate count 0x5c ++ rest) = some wide ↔ ∃ back,
      utf8ToWide rest = some back ∧ wide = List.replicate count 0x5c ++ back := by
  induction count generalizing wide with
  | zero =>
    constructor
    · exact fun hwide => ⟨wide, hwide, rfl⟩
    · rintro ⟨back, hback, rfl⟩
      exact hback
  | succ count ih =>
    have hnul : (0 : UInt8) ∉ List.replicate count 0x5c ++ rest := by
      intro hmem
      rcases List.mem_append.1 hmem with hslash | hmem
      · exact absurd (List.eq_of_mem_replicate hslash) (by decide)
      · exact hrest hmem
    rw [List.replicate_succ, List.cons_append, h.cons (by decide) (by decide) hnul]
    constructor
    · rintro ⟨back, hback, hwide⟩
      obtain ⟨back', hback', hfront⟩ := ih.1 hback
      refine ⟨back', hback', ?_⟩
      rw [hwide, hfront, List.replicate_succ]
      rfl
    · rintro ⟨back, hback, hwide⟩
      refine ⟨_, ih.2 ⟨back, hback, rfl⟩, ?_⟩
      rw [hwide, List.replicate_succ]
      rfl

theorem KeepsAscii.letters (hnul : 0 ∉ text) (hwide : utf8ToWide text = some wide) :
    (∀ c ∈ text, c < 0x80 → c.toUInt16 ∈ wide) ∧
      ∀ unit ∈ wide, 0x80 ≤ unit ∨ ∃ c ∈ text, c < 0x80 ∧ c.toUInt16 = unit := by
  induction cut hnul generalizing wide with
  | nil =>
    rw [h.empty] at hwide
    cases hwide
    exact ⟨fun c hc => absurd hc List.not_mem_nil, fun unit hunit => absurd hunit List.not_mem_nil⟩
  | @ascii c rest hc hascii hrest _ ih =>
    obtain ⟨back, hback, rfl⟩ := (h.cons hc hascii hrest).1 hwide
    obtain ⟨hkept, hfrom⟩ := ih hrest hback
    constructor
    · intro d hd hd'
      rcases List.mem_cons.1 hd with rfl | hd
      · exact List.mem_cons_self
      · exact List.mem_cons_of_mem _ (hkept d hd hd')
    · intro unit hunit
      rcases List.mem_cons.1 hunit with rfl | hunit
      · exact .inr ⟨c, List.mem_cons_self, hascii, rfl⟩
      · apply (hfrom unit hunit).imp_right
        rintro ⟨d, hd, hd'⟩
        exact ⟨d, List.mem_cons_of_mem _ hd, hd'⟩
  | @run run rest _ hrun hlead hrest _ ih =>
    have hfirst : 0 ∉ run := fun hmem => absurd (hrun 0 hmem) (by decide)
    obtain ⟨front, back, hfront, hback, rfl⟩ := (h.append hfirst hlead hrest).1 hwide
    obtain ⟨hkept, hfrom⟩ := ih hrest hback
    constructor
    · intro d hd hd'
      rcases List.mem_append.1 hd with hd | hd
      · exact absurd hd' (UInt8.not_lt.2 (hrun d hd))
      · exact List.mem_append_right _ (hkept d hd hd')
    · intro unit hunit
      rcases List.mem_append.1 hunit with hunit | hunit
      · exact .inl (h.other run front hrun hfront unit hunit)
      · apply (hfrom unit hunit).imp_right
        rintro ⟨d, hd, hd'⟩
        exact ⟨d, List.mem_append_right _ hd, hd'⟩

theorem KeepsAscii.mem_iff (hnul : 0 ∉ text) (hwide : utf8ToWide text = some wide)
    (hascii : c < 0x80) : c.toUInt16 ∈ wide ↔ c ∈ text := by
  obtain ⟨hkept, hfrom⟩ := h.letters hnul hwide
  constructor
  · intro hmem
    rcases hfrom _ hmem with hother | ⟨d, hd, -, hsame⟩
    · exact absurd (UInt8.toUInt16_lt.2 hascii) (UInt16.not_lt.2 hother)
    · rw [← UInt8.toUInt16_inj.1 hsame]
      exact hd
  · exact fun hmem => hkept c hmem hascii

theorem KeepsAscii.ne_nil (hnul : 0 ∉ text) (hne : text ≠ [])
    (hwide : utf8ToWide text = some wide) :
    wide ≠ [] := by
  rintro rfl
  exact hne (h.injective text [] [] hnul List.not_mem_nil hwide h.empty)

theorem KeepsAscii.quoteLoop {slashes : Nat} (hnul : 0 ∉ text)
    (hwide : utf8ToWide (byteMarks.quoteLoop slashes text) = some wide) :
    ∃ units, utf8ToWide text = some units ∧ wide = unitMarks.quoteLoop slashes units := by
  induction cut hnul generalizing wide slashes with
  | nil =>
    rw [Marks.quoteLoop, ← List.append_nil (List.replicate _ _)] at hwide
    obtain ⟨back, hback, rfl⟩ := (h.replicate _ List.not_mem_nil).1 hwide
    rw [h.empty] at hback
    cases hback
    exact ⟨[], h.empty, List.append_nil _⟩
  | @ascii c rest hc hascii hrest _ ih =>
    have hloop := nul_not_mem_quoteLoop hrest 0
    have htail : 0 ∉ c :: byteMarks.quoteLoop 0 rest := by
      intro hmem
      rcases List.mem_cons.1 hmem with hzero | hmem
      · exact hc hzero.symm
      · exact hloop hmem
    rw [Marks.quoteLoop] at hwide
    by_cases hslash : c = byteMarks.slash
    · rw [if_pos hslash] at hwide
      obtain ⟨units, hunits, rfl⟩ := ih hrest hwide
      refine ⟨_, (h.cons hc hascii hrest).2 ⟨units, hunits, rfl⟩, ?_⟩
      rw [hslash, Marks.quoteLoop]
      exact (if_pos rfl).symm
    · rw [if_neg hslash] at hwide
      have hslash' : c.toUInt16 ≠ unitMarks.slash :=
        fun hsame => hslash (UInt8.toUInt16_inj.1 hsame)
      by_cases hquote : c = byteMarks.quote
      · rw [if_pos hquote] at hwide
        obtain ⟨back, hback, rfl⟩ := (h.replicate _ htail).1 hwide
        obtain ⟨loop, hloop, rfl⟩ := (h.cons hc hascii hloop).1 hback
        obtain ⟨units, hunits, rfl⟩ := ih hrest hloop
        have hquote' : c.toUInt16 = unitMarks.quote := congrArg UInt8.toUInt16 hquote
        refine ⟨_, (h.cons hc hascii hrest).2 ⟨units, hunits, rfl⟩, ?_⟩
        rw [Marks.quoteLoop, if_neg hslash', if_pos hquote']
        rfl
      · rw [if_neg hquote] at hwide
        obtain ⟨back, hback, rfl⟩ := (h.replicate _ htail).1 hwide
        obtain ⟨loop, hloop, rfl⟩ := (h.cons hc hascii hloop).1 hback
        obtain ⟨units, hunits, rfl⟩ := ih hrest hloop
        have hquote' : c.toUInt16 ≠ unitMarks.quote :=
          fun hsame => hquote (UInt8.toUInt16_inj.1 hsame)
        refine ⟨_, (h.cons hc hascii hrest).2 ⟨units, hunits, rfl⟩, ?_⟩
        rw [Marks.quoteLoop, if_neg hslash', if_neg hquote']
        rfl
  | @run run rest hne hrun hlead hrest _ ih =>
    have hfirst : 0 ∉ run := fun hmem => absurd (hrun 0 hmem) (by decide)
    have hloop := nul_not_mem_quoteLoop hrest 0
    have hmarks : ∀ c ∈ run, c ≠ byteMarks.slash ∧ c ≠ byteMarks.quote := by
      intro c hc
      constructor
      · rintro rfl
        exact absurd (hrun _ hc) (by decide)
      · rintro rfl
        exact absurd (hrun _ hc) (by decide)
    have hnul : 0 ∉ run ++ byteMarks.quoteLoop 0 rest := by
      intro hmem
      exact (List.mem_append.1 hmem).elim hfirst hloop
    rw [Marks.quoteLoop_ordinary hmarks hne] at hwide
    obtain ⟨back, hback, rfl⟩ := (h.replicate _ hnul).1 hwide
    obtain ⟨front, loop, hfront, hloop, rfl⟩ :=
      (h.append hfirst (leads_quoteLoop hlead) hloop).1 hback
    obtain ⟨units, hunits, rfl⟩ := ih hrest hloop
    have hmarks' : ∀ unit ∈ front, unit ≠ unitMarks.slash ∧ unit ≠ unitMarks.quote := by
      intro unit hunit
      constructor
      · rintro rfl
        exact absurd (h.other run front hrun hfront _ hunit) (by decide)
      · rintro rfl
        exact absurd (h.other run front hrun hfront _ hunit) (by decide)
    refine ⟨front ++ units, (h.append hfirst hlead hrest).2 ⟨front, units, hfront, hunits, rfl⟩, ?_⟩
    rw [Marks.quoteLoop_ordinary hmarks' (h.ne_nil hfirst hne hfront)]
    rfl

theorem KeepsAscii.plain_iff (hnul : 0 ∉ text) (hwide : utf8ToWide text = some units) :
    byteMarks.Plain text ↔ unitMarks.Plain units := by
  have hempty : text ≠ [] ↔ units ≠ [] := by
    constructor
    · exact fun hne => h.ne_nil hnul hne hwide
    · rintro hne rfl
      rw [h.empty] at hwide
      cases hwide
      exact hne rfl
  have hspace : byteMarks.space ∉ text ↔ unitMarks.space ∉ units :=
    not_congr (h.mem_iff hnul hwide (by decide)).symm
  have htab : byteMarks.tab ∉ text ↔ unitMarks.tab ∉ units :=
    not_congr (h.mem_iff hnul hwide (by decide)).symm
  have hquote : byteMarks.quote ∉ text ↔ unitMarks.quote ∉ units :=
    not_congr (h.mem_iff hnul hwide (by decide)).symm
  rw [Marks.plain_iff, Marks.plain_iff, hempty, hspace, htab, hquote]

theorem KeepsAscii.quoteItem (hnul : 0 ∉ text)
    (hwide : utf8ToWide (byteMarks.quoteItem text) = some wide) :
    ∃ units, utf8ToWide text = some units ∧ wide = unitMarks.quoteItem units := by
  rw [Marks.quoteItem] at hwide
  split at hwide
  · rename_i hplain
    refine ⟨wide, hwide, ?_⟩
    rw [Marks.quoteItem, if_pos ((h.plain_iff hnul hwide).1 hplain)]
  · rename_i hplain
    have hloop := nul_not_mem_quoteLoop hnul 0
    have hclosed : 0 ∉ byteMarks.quoteLoop 0 text ++ [byteMarks.quote] := by
      intro hmem
      rcases List.mem_append.1 hmem with hmem | hzero
      · exact hloop hmem
      · exact absurd (List.mem_singleton.1 hzero) (by decide)
    obtain ⟨back, hback, rfl⟩ := (h.cons (by decide) (by decide) hclosed).1 hwide
    obtain ⟨front, last, hfront, hlast, rfl⟩ :=
      (h.ascii _ _ _ _ hloop List.not_mem_nil (by decide) (by decide)).1 hback
    rw [h.empty] at hlast
    cases hlast
    obtain ⟨units, hunits, rfl⟩ := h.quoteLoop hnul hfront
    refine ⟨units, hunits, ?_⟩
    rw [Marks.quoteItem, if_neg fun hplain' => hplain ((h.plain_iff hnul hunits).2 hplain')]
    rfl

theorem KeepsAscii.arguments (hfront : 0 ∉ before) (hargs : ∀ arg ∈ args, 0 ∉ arg)
    (hwide : utf8ToWide (before ++ quotedArguments args) = some wide) :
    ∃ front words, utf8ToWide before = some front ∧ args.mapM utf8ToWide = some words ∧
      (∀ word ∈ words, 0 ∉ word) ∧
      wide = front ++ words.flatMap fun word => unitMarks.space :: unitMarks.quoteItem word := by
  induction args generalizing before wide with
  | nil =>
    rw [quotedArguments, List.flatMap_nil, List.append_nil] at hwide
    exact ⟨wide, [], hwide, rfl, fun word hword => absurd hword List.not_mem_nil,
      (List.append_nil wide).symm⟩
  | cons arg args ih =>
    have harg := hargs arg List.mem_cons_self
    have hrest := fun arg harg => hargs arg (List.mem_cons_of_mem _ harg)
    have hitem := nul_not_mem_quoteItem harg
    have hafter : 0 ∉ byteMarks.quoteItem arg ++ quotedArguments args := by
      intro hmem
      exact (List.mem_append.1 hmem).elim hitem (nul_not_mem_arguments hrest)
    obtain ⟨front, back, hfront, hback, rfl⟩ :=
      (h.ascii before 0x20 _ _ hfront hafter (by decide) (by decide)).1 hwide
    obtain ⟨quoted, words, hquoted, hwords, hnul, rfl⟩ := ih hitem hrest hback
    obtain ⟨units, hunits, rfl⟩ := h.quoteItem harg hquoted
    refine ⟨front, units :: words, hfront, ?_, ?_, rfl⟩
    · rw [List.mapM_cons, hunits, hwords]
      rfl
    · intro word hword
      rcases List.mem_cons.1 hword with rfl | hword
      · exact fun hmem => harg ((h.mem_iff harg hunits (by decide)).1 hmem)
      · exact hnul word hword

theorem KeepsAscii.mapM_injective {args others : List (List UInt8)}
    (hargs : ∀ arg ∈ args, 0 ∉ arg) (hothers : ∀ arg ∈ others, 0 ∉ arg)
    (hwords : args.mapM utf8ToWide = some words) (hsame : others.mapM utf8ToWide = some words) :
    others = args := by
  induction args generalizing others words with
  | nil =>
    cases hwords
    cases others with
    | nil => rfl
    | cons other others =>
      rw [List.mapM_cons] at hsame
      obtain ⟨_, -, hsame⟩ := Option.bind_eq_some_iff.1 hsame
      obtain ⟨_, -, hsame⟩ := Option.bind_eq_some_iff.1 hsame
      cases hsame
  | cons arg args ih =>
    rw [List.mapM_cons] at hwords
    obtain ⟨units, hunits, hwords⟩ := Option.bind_eq_some_iff.1 hwords
    obtain ⟨rest, hrest, hwords⟩ := Option.bind_eq_some_iff.1 hwords
    cases hwords
    cases others with
    | nil => cases hsame
    | cons other others =>
      rw [List.mapM_cons] at hsame
      obtain ⟨units', hunits', hsame⟩ := Option.bind_eq_some_iff.1 hsame
      obtain ⟨rest', hrest', hsame⟩ := Option.bind_eq_some_iff.1 hsame
      cases hsame
      have hfirst := h.injective other arg units (hothers other List.mem_cons_self)
        (hargs arg List.mem_cons_self) hunits' hunits
      have hothers := ih (fun arg harg => hargs arg (List.mem_cons_of_mem _ harg))
        (fun arg harg => hothers arg (List.mem_cons_of_mem _ harg)) hrest hrest'
      rw [hfirst, hothers]

end KeepsAscii

/-- The program finds the arguments it was given, and they can be told from all others. -/
theorem commandLine_parsed (h : KeepsAscii utf8ToWide) (hquote : 0x22 ∉ executable)
    (hpath : 0 ∉ executable) (hargs : ∀ arg ∈ args, 0 ∉ arg)
    (hbuilt : toMutableCommandLine utf8ToWide executable args = some buffer) :
    args.mapM utf8ToWide = some (unitMarks.parseArgv buffer).2 ∧
      ∀ others, (∀ arg ∈ others, 0 ∉ arg) →
        others.mapM utf8ToWide = some (unitMarks.parseArgv buffer).2 → others = args := by
  rw [toMutableCommandLine, command_eq, Marks.commandLine] at hbuilt
  obtain ⟨wide, hwide, rfl⟩ := Option.map_eq_some_iff.1 hbuilt
  obtain ⟨quoted, words, hquoted, hwords, hnul, rfl⟩ :=
    h.arguments (nul_not_mem_quoteItem hpath) hargs hwide
  obtain ⟨units, hunits, rfl⟩ := h.quoteItem hpath hquoted
  have hprogram : unitMarks.quote ∉ units ∧ unitMarks.nul ∉ units :=
    ⟨fun hmem => hquote ((h.mem_iff hpath hunits (by decide)).1 hmem),
      fun hmem => hpath ((h.mem_iff hpath hunits (by decide)).1 hmem)⟩
  have hparsed := Marks.parseArgv_commandLine hprogram.1 hprogram.2 hnul []
  rw [Marks.commandLine] at hparsed
  have hparsed : (unitMarks.parseArgv ((unitMarks.quoteItem units ++ words.flatMap fun word =>
      unitMarks.space :: unitMarks.quoteItem word) ++ [0])).2 = words := hparsed
  rw [hparsed]
  exact ⟨hwords, fun others hothers hsame => h.mapM_injective hargs hothers hwords hsame⟩

/-- The conversion of an ASCII text, which ends at the first NUL. -/
def widen (text : List UInt8) : Option (List UInt16) :=
  some ((text.takeWhile (· ≠ 0)).map UInt8.toUInt16)

theorem widen_eq (hnul : 0 ∉ text) : widen text = some (text.map UInt8.toUInt16) := by
  have hall : text.takeWhile (· ≠ 0) = text := by
    apply List.takeWhile_eq_self_iff.2
    intro c hc
    rw [decide_eq_true_iff]
    rintro rfl
    exact hnul hc
  rw [widen, hall]

theorem widen_keepsAscii : KeepsAscii widen where
  empty := rfl
  ascii := by
    intro before c after wide hbefore hafter hc _
    have hnul : 0 ∉ before ++ c :: after := by
      intro hmem
      rcases List.mem_append.1 hmem with hmem | hmem
      · exact hbefore hmem
      · rcases List.mem_cons.1 hmem with hzero | hmem
        · exact hc hzero.symm
        · exact hafter hmem
    rw [widen_eq hnul, widen_eq hbefore, widen_eq hafter, List.map_append, List.map_cons]
    constructor
    · intro hwide
      exact ⟨_, _, rfl, rfl, (Option.some.inj hwide).symm⟩
    · rintro ⟨front, back, hfront, hback, rfl⟩
      cases hfront
      cases hback
      rfl
  other := by
    intro text wide htext hwide unit hunit
    cases hwide
    obtain ⟨c, hc, rfl⟩ := List.mem_map.1 hunit
    have hmem := (List.takeWhile_prefix _).subset hc
    exact UInt16.not_lt.1 fun hlt => UInt8.not_lt.2 (htext c hmem) (UInt8.toUInt16_lt.1 hlt)
  injective := by
    intro text text' wide hnul hnul' hwide hwide'
    rw [widen_eq hnul] at hwide
    rw [widen_eq hnul', ← hwide] at hwide'
    exact (List.map_injective_iff.2 (fun _ _ => UInt8.toUInt16_inj.1) (Option.some.inj hwide')).symm

/-- A path and an argument with a blank, and an argument that ends in a slash. -/
theorem commandLine_parsed_blanks : ∃ buffer,
    toMutableCommandLine widen [0x61, 0x20, 0x62] [[0x20, 0x5c], [0x5c]] = some buffer ∧
      [[0x20, 0x5c], [0x5c]].mapM widen = some (unitMarks.parseArgv buffer).2 := by
  refine ⟨_, rfl, (commandLine_parsed widen_keepsAscii ?_ ?_ ?_ rfl).1⟩
  · decide
  · decide
  · decide

/-- The command line ends at a NUL in the path of the executable. -/
theorem commandLine_cut : ¬ ∀ utf8ToWide, KeepsAscii utf8ToWide → ∀ executable args buffer,
    0x22 ∉ executable → (∀ arg ∈ args, 0 ∉ arg) →
      toMutableCommandLine utf8ToWide executable args = some buffer →
        args.mapM utf8ToWide = some (unitMarks.parseArgv buffer).2 := by
  intro hall
  have hline : toMutableCommandLine widen [0x61, 0] [[0x62]] = some [0x61, 0] := by decide +kernel
  have hparsed :=
    hall widen widen_keepsAscii [0x61, 0] [[0x62]] [0x61, 0] (by decide) (by decide) hline
  exact absurd hparsed (by decide)

end PmTiny.Windows
