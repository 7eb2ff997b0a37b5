import Mathlib.Tactic.Basic

namespace ArgvQuoting
set_option autoImplicit true

structure Marks (α : Type) where
  nul : α
  space : α
  tab : α
  quote : α
  slash : α
  distinct : [nul, space, tab, quote, slash].Nodup

namespace Marks

variable {α : Type}

def Blank (m : Marks α) (c : α) : Prop := c = m.space ∨ c = m.tab

/-- An item that can stand as it is. -/
def Plain (m : Marks α) (item : List α) : Prop :=
  item ≠ [] ∧ ∀ c ∈ item, ¬ m.Blank c ∧ c ≠ m.quote

variable {m : Marks α}

theorem distinct_pairwise : (m.nul ≠ m.space ∧ m.nul ≠ m.tab ∧ m.nul ≠ m.quote ∧ m.nul ≠ m.slash) ∧
    (m.quote ≠ m.space ∧ m.quote ≠ m.tab ∧ m.quote ≠ m.slash) ∧
    m.slash ≠ m.space ∧ m.slash ≠ m.tab := by
  have hdistinct := m.distinct
  simp only [List.nodup_cons, List.mem_cons, List.not_mem_nil, or_false, not_or] at hdistinct
  obtain ⟨hnul, hspace, htab, hquote, -⟩ := hdistinct
  exact ⟨hnul, ⟨Ne.symm hspace.2.1, Ne.symm htab.1, hquote⟩, Ne.symm hspace.2.2, Ne.symm htab.2⟩

theorem quote_ne_slash : m.quote ≠ m.slash := distinct_pairwise.2.1.2.2

theorem quote_ne_nul : m.quote ≠ m.nul := Ne.symm distinct_pairwise.1.2.2.1

theorem slash_ne_nul : m.slash ≠ m.nul := Ne.symm distinct_pairwise.1.2.2.2

theorem quote_not_blank : ¬ m.Blank m.quote :=
  not_or_intro distinct_pairwise.2.1.1 distinct_pairwise.2.1.2.1

theorem slash_not_blank : ¬ m.Blank m.slash :=
  not_or_intro distinct_pairwise.2.2.1 distinct_pairwise.2.2.2

theorem nul_not_blank : ¬ m.Blank m.nul :=
  not_or_intro distinct_pairwise.1.1 distinct_pairwise.1.2.1

theorem Blank.ne_quote (h : m.Blank c) : c ≠ m.quote := by
  rintro rfl
  exact quote_not_blank h

theorem Blank.ne_slash (h : m.Blank c) : c ≠ m.slash := by
  rintro rfl
  exact slash_not_blank h

theorem Blank.ne_nul (h : m.Blank c) : c ≠ m.nul := by
  rintro rfl
  exact nul_not_blank h

theorem plain_iff : m.Plain item ↔
    item ≠ [] ∧ m.space ∉ item ∧ m.tab ∉ item ∧ m.quote ∉ item := by
  constructor
  · rintro ⟨hne, hplain⟩
    refine ⟨hne, fun hmem => ?_, fun hmem => ?_, fun hmem => ?_⟩
    · exact (hplain _ hmem).1 (.inl rfl)
    · exact (hplain _ hmem).1 (.inr rfl)
    · exact (hplain _ hmem).2 rfl
  · rintro ⟨hne, hspace, htab, hquote⟩
    refine ⟨hne, fun c hc => ⟨?_, ?_⟩⟩
    · rintro (rfl | rfl)
      · exact hspace hc
      · exact htab hc
    · rintro rfl
      exact hquote hc

variable [DecidableEq α] (m : Marks α)

instance : DecidablePred m.Blank := fun c =>
  inferInstanceAs (Decidable (c = m.space ∨ c = m.tab))

/-- The name of the program up to the first blank outside of quotes; a slash is an ordinary
letter here. -/
def parseProgram (inQuotes : Bool) : List α → List α × List α
  | [] => ([], [])
  | c :: rest =>
    if c = m.quote then parseProgram (!inQuotes) rest
    else if c = m.nul then ([], c :: rest)
    else if inQuotes = false ∧ m.Blank c then ([], rest)
    else (c :: (parseProgram inQuotes rest).1, (parseProgram inQuotes rest).2)

def prepend (letters : List α) (read : List α × List α) : List α × List α :=
  (letters ++ read.1, read.2)

/-- One item and what is behind it. Slashes only count when a quote follows them: two of them stand
for one, and an odd one makes the quote an ordinary letter. Two quotes inside of quotes stand for
one as well. -/
def parseItem (inQuotes : Bool) (slashes : Nat) : List α → List α × List α
  | [] => (List.replicate slashes m.slash, [])
  | c :: rest =>
    if c = m.slash then parseItem inQuotes (slashes + 1) rest
    else if c = m.quote then
      if slashes % 2 = 0 then
        match rest with
        | [] => (List.replicate (slashes / 2) m.slash, [])
        | next :: after =>
          if inQuotes = true ∧ next = m.quote then
            prepend (List.replicate (slashes / 2) m.slash ++ [c]) (parseItem inQuotes 0 after)
          else
            prepend (List.replicate (slashes / 2) m.slash)
              (parseItem (!inQuotes) 0 (next :: after))
      else
        prepend (List.replicate (slashes / 2) m.slash ++ [c]) (parseItem inQuotes 0 rest)
    else if c = m.nul ∨ (inQuotes = false ∧ m.Blank c) then
      (List.replicate slashes m.slash, c :: rest)
    else prepend (List.replicate slashes m.slash ++ [c]) (parseItem inQuotes 0 rest)

/-- The items of a text up to its end; each of them takes at least one letter. -/
def parseItems : Nat → List α → List (List α)
  | 0, _ => []
  | fuel + 1, text =>
    match text.dropWhile fun c => m.Blank c with
    | [] => []
    | c :: rest =>
      if c = m.nul then []
      else (m.parseItem false 0 (c :: rest)).1 ::
        parseItems fuel (m.parseItem false 0 (c :: rest)).2

/-- The name of the program and the arguments. -/
def parseArgv (text : List α) : List α × List (List α) :=
  ((m.parseProgram false text).1, m.parseItems text.length (m.parseProgram false text).2)

/-- The letters of an item between its quotes, with the slashes that were read last still to be
written. -/
def quoteLoop (slashes : Nat) : List α → List α
  | [] => List.replicate (slashes * 2) m.slash
  | c :: rest =>
    if c = m.slash then quoteLoop (slashes + 1) rest
    else if c = m.quote then
      List.replicate (slashes * 2 + 1) m.slash ++ c :: quoteLoop 0 rest
    else List.replicate slashes m.slash ++ c :: quoteLoop 0 rest

instance : DecidablePred m.Plain := fun item =>
  inferInstanceAs (Decidable (item ≠ [] ∧ ∀ c ∈ item, ¬ m.Blank c ∧ c ≠ m.quote))

def quoteItem (item : List α) : List α :=
  if m.Plain item then item else m.quote :: (m.quoteLoop 0 item ++ [m.quote])

def commandLine (program : List α) (items : List (List α)) : List α :=
  m.quoteItem program ++ items.flatMap fun item => m.space :: m.quoteItem item

variable {m}

def Stops (m : Marks α) (text : List α) : Prop := ∀ c ∈ text.head?, c = m.nul ∨ m.Blank c

/-- Letters that mean nothing to the quoting are written as they are, behind the slashes before
them. -/
theorem quoteLoop_ordinary (hrun : ∀ c ∈ run, c ≠ m.slash ∧ c ≠ m.quote) (hne : run ≠ [])
    (slashes : Nat) (rest : List α) :
    m.quoteLoop slashes (run ++ rest) =
      List.replicate slashes m.slash ++ (run ++ m.quoteLoop 0 rest) := by
  induction run generalizing slashes with
  | nil => exact absurd rfl hne
  | cons c run ih =>
    obtain ⟨hslash, hquote⟩ := hrun c List.mem_cons_self
    rw [List.cons_append, quoteLoop, if_neg hslash, if_neg hquote]
    cases run with
    | nil => rfl
    | cons next run =>
      rw [ih (fun c hc => hrun c (List.mem_cons_of_mem _ hc)) (List.cons_ne_nil _ _)]
      rfl

theorem quoteLoop_succ (slashes : Nat) (item : List α) :
    ∃ rest, m.quoteLoop (slashes + 1) item = m.slash :: rest := by
  induction item generalizing slashes with
  | nil =>
    rw [quoteLoop, Nat.succ_mul]
    exact ⟨_, List.replicate_succ⟩
  | cons c item ih =>
    rw [quoteLoop]
    split
    · exact ih (slashes + 1)
    · split
      · exact ⟨_, rfl⟩
      · exact ⟨_, rfl⟩

theorem parseItem_slash (inQuotes : Bool) (slashes : Nat) (rest : List α) :
    m.parseItem inQuotes slashes (m.slash :: rest) = m.parseItem inQuotes (slashes + 1) rest := by
  rw [parseItem.eq_def]
  exact if_pos rfl

theorem parseItem_slashes (count : Nat) (inQuotes : Bool) (slashes : Nat) (text : List α) :
    m.parseItem inQuotes slashes (List.replicate count m.slash ++ text) =
      m.parseItem inQuotes (slashes + count) text := by
  induction count generalizing slashes with
  | zero => rfl
  | succ count ih =>
    rw [List.replicate_succ, List.cons_append, parseItem_slash, ih, Nat.add_right_comm,
      Nat.add_assoc]

theorem parseItem_letter (hslash : c ≠ m.slash) (hquote : c ≠ m.quote)
    (hmore : ¬ (c = m.nul ∨ (inQuotes = false ∧ m.Blank c))) (slashes : Nat) (rest : List α) :
    m.parseItem inQuotes slashes (c :: rest) =
      prepend (List.replicate slashes m.slash ++ [c]) (m.parseItem inQuotes 0 rest) := by
  rw [parseItem.eq_def]
  dsimp only
  rw [if_neg hslash, if_neg hquote, if_neg hmore]

theorem parseItem_literal_quote (inQuotes : Bool) (count : Nat) (rest : List α) :
    m.parseItem inQuotes (count * 2 + 1) (m.quote :: rest) =
      prepend (List.replicate count m.slash ++ [m.quote]) (m.parseItem inQuotes 0 rest) := by
  have hodd : ¬ (count * 2 + 1) % 2 = 0 := by omega
  have hhalf : (count * 2 + 1) / 2 = count := by omega
  rw [parseItem.eq_def]
  dsimp only
  rw [if_neg quote_ne_slash, if_pos rfl, if_neg hodd, hhalf]

/-- A quote behind pairs of slashes opens, or closes when no other quote follows. -/
theorem parseItem_toggle (hnext : inQuotes = true → m.quote ∉ rest.head?) (count : Nat) :
    m.parseItem inQuotes (count * 2) (m.quote :: rest) =
      prepend (List.replicate count m.slash) (m.parseItem (!inQuotes) 0 rest) := by
  have heven : count * 2 % 2 = 0 := by omega
  have hhalf : count * 2 / 2 = count := by omega
  rw [parseItem.eq_def]
  dsimp only
  rw [if_neg quote_ne_slash, if_pos rfl, if_pos heven, hhalf]
  cases rest with
  | nil => rw [parseItem, prepend, List.replicate_zero, List.append_nil]
  | cons next after =>
    have hone : ¬ (inQuotes = true ∧ next = m.quote) := by
      rintro ⟨hopen, rfl⟩
      exact hnext hopen rfl
    exact if_neg hone

theorem parseItem_stop (h : m.Stops text) (slashes : Nat) :
    m.parseItem false slashes text = (List.replicate slashes m.slash, text) := by
  cases text with
  | nil => rfl
  | cons c rest =>
    have hends : c = m.nul ∨ (false = false ∧ m.Blank c) := (h c rfl).imp_right fun h => ⟨rfl, h⟩
    have hmarks : c ≠ m.slash ∧ c ≠ m.quote := by
      rcases h c rfl with rfl | hblank
      · exact ⟨Ne.symm slash_ne_nul, Ne.symm quote_ne_nul⟩
      · exact ⟨hblank.ne_slash, hblank.ne_quote⟩
    rw [parseItem.eq_def]
    dsimp only
    rw [if_neg hmarks.1, if_neg hmarks.2, if_pos hends]

theorem parseItem_plain (hitem : ∀ c ∈ item, ¬ m.Blank c ∧ c ≠ m.quote) (hnul : m.nul ∉ item)
    (hstop : m.Stops text) (slashes : Nat) :
    m.parseItem false slashes (item ++ text) =
      (List.replicate slashes m.slash ++ item, text) := by
  induction item generalizing slashes with
  | nil =>
    rw [List.nil_append, List.append_nil]
    exact parseItem_stop hstop slashes
  | cons c item ih =>
    have hrest := ih (fun c hc => hitem c (List.mem_cons_of_mem _ hc))
      (fun hmem => hnul (List.mem_cons_of_mem _ hmem))
    obtain ⟨hblank, hquote⟩ := hitem c List.mem_cons_self
    rw [List.cons_append]
    by_cases hslash : c = m.slash
    · subst hslash
      rw [parseItem_slash, hrest, List.replicate_succ', List.append_assoc,
        List.singleton_append]
    · have hmore : ¬ (c = m.nul ∨ (false = false ∧ m.Blank c)) := by
        rintro (rfl | ⟨-, h⟩)
        · exact hnul List.mem_cons_self
        · exact hblank h
      rw [parseItem_letter hslash hquote hmore, hrest, List.replicate_zero,
        List.nil_append, prepend,
        List.append_assoc, List.singleton_append]

/-- Between its quotes an item is read back, whatever slashes and quotes it holds. -/
theorem parseItem_quoteLoop (hnul : m.nul ∉ item) (hstop : m.Stops text) (slashes : Nat) :
    m.parseItem true 0 (m.quoteLoop slashes item ++ m.quote :: text) =
      (List.replicate slashes m.slash ++ item, text) := by
  induction item generalizing slashes with
  | nil =>
    have hnext : true = true → m.quote ∉ text.head? := by
      intro _ hquote
      rcases hstop _ hquote with hnul | hblank
      · exact quote_ne_nul hnul
      · exact quote_not_blank hblank
    rw [quoteLoop, parseItem_slashes, Nat.zero_add, parseItem_toggle hnext, Bool.not_true,
      parseItem_stop hstop, prepend, List.replicate_zero]
  | cons c item ih =>
    have hrest := ih fun hmem => hnul (List.mem_cons_of_mem _ hmem)
    rw [quoteLoop]
    split
    · rename_i hslash
      rw [hrest, hslash, List.replicate_succ', List.append_assoc, List.singleton_append]
    · rename_i hslash
      split
      · rename_i hquote
        rw [hquote, List.append_assoc, parseItem_slashes, Nat.zero_add, List.cons_append,
          parseItem_literal_quote, hrest, List.replicate_zero, List.nil_append, prepend,
          List.append_assoc, List.singleton_append]
      · rename_i hquote
        have hmore : ¬ (c = m.nul ∨ (true = false ∧ m.Blank c)) := by
          rintro (rfl | ⟨hclosed, -⟩)
          · exact hnul List.mem_cons_self
          · cases hclosed
        rw [List.append_assoc, parseItem_slashes, Nat.zero_add, List.cons_append,
          parseItem_letter hslash hquote hmore, hrest, List.replicate_zero,
            List.nil_append, prepend,
          List.append_assoc, List.singleton_append]

theorem parseItem_quoteItem (hnul : m.nul ∉ item) (hstop : m.Stops text) :
    m.parseItem false 0 (m.quoteItem item ++ text) = (item, text) := by
  rw [quoteItem]
  split
  · rename_i hplain
    exact parseItem_plain hplain.2 hnul hstop 0
  · have hopen : m.parseItem false (0 * 2) (m.quote :: (m.quoteLoop 0 item ++ m.quote :: text)) =
        prepend [] (m.parseItem true 0 (m.quoteLoop 0 item ++ m.quote :: text)) :=
      parseItem_toggle Bool.noConfusion 0
    rw [Nat.zero_mul, parseItem_quoteLoop hnul hstop] at hopen
    rw [List.cons_append, List.append_assoc, List.singleton_append]
    exact hopen

theorem parseProgram_plain (hitem : ∀ c ∈ item, ¬ m.Blank c ∧ c ≠ m.quote) (hnul : m.nul ∉ item)
    (text : List α) :
    m.parseProgram false (item ++ text) = prepend item (m.parseProgram false text) := by
  induction item with
  | nil => rfl
  | cons c item ih =>
    have hrest := ih (fun c hc => hitem c (List.mem_cons_of_mem _ hc))
      (fun hmem => hnul (List.mem_cons_of_mem _ hmem))
    obtain ⟨hblank, hquote⟩ := hitem c List.mem_cons_self
    have hne : c ≠ m.nul := by
      rintro rfl
      exact hnul List.mem_cons_self
    rw [List.cons_append, parseProgram, if_neg hquote, if_neg hne, if_neg fun h =>
      hblank h.2, hrest]
    rfl

theorem parseProgram_quoted (hquote : m.quote ∉ item) (hnul : m.nul ∉ item) (text : List α) :
    m.parseProgram true (item ++ m.quote :: text) = prepend item (m.parseProgram false text) := by
  induction item with
  | nil =>
    rw [List.nil_append, parseProgram, if_pos rfl]
    rfl
  | cons c item ih =>
    have hrest := ih (fun hmem => hquote (List.mem_cons_of_mem _ hmem))
      (fun hmem => hnul (List.mem_cons_of_mem _ hmem))
    have hne : c ≠ m.quote ∧ c ≠ m.nul := by
      constructor
      · rintro rfl
        exact hquote List.mem_cons_self
      · rintro rfl
        exact hnul List.mem_cons_self
    rw [List.cons_append, parseProgram, if_neg hne.1, if_neg hne.2,
      if_neg fun h => Bool.noConfusion h.1, hrest]
    rfl

/-- Quoting adds no letters but slashes and quotes, and a quote only for one of the item. -/
theorem mem_quoteLoop (h : c ∈ m.quoteLoop slashes item) : c = m.slash ∨ c ∈ item := by
  induction item generalizing slashes with
  | nil => exact .inl (List.eq_of_mem_replicate h)
  | cons first item ih =>
    rw [quoteLoop] at h
    split at h
    · exact (ih h).imp_right (List.mem_cons_of_mem _)
    · split at h
      · rcases List.mem_append.1 h with hslash | hrest
        · exact .inl (List.eq_of_mem_replicate hslash)
        · rcases List.mem_cons.1 hrest with rfl | hrest
          · exact .inr List.mem_cons_self
          · exact (ih hrest).imp_right (List.mem_cons_of_mem _)
      · rcases List.mem_append.1 h with hslash | hrest
        · exact .inl (List.eq_of_mem_replicate hslash)
        · rcases List.mem_cons.1 hrest with rfl | hrest
          · exact .inr List.mem_cons_self
          · exact (ih hrest).imp_right (List.mem_cons_of_mem _)

theorem parseProgram_quoteItem (hquote : m.quote ∉ program) (hnul : m.nul ∉ program)
    (text : List α) :
    (m.parseProgram false (m.quoteItem program ++ text)).2 = (m.parseProgram false text).2 := by
  rw [quoteItem]
  split
  · rename_i hplain
    rw [parseProgram_plain hplain.2 hnul]
    rfl
  · have hloop : m.quote ∉ m.quoteLoop 0 program ∧ m.nul ∉ m.quoteLoop 0 program := by
      constructor
      · intro hmem
        exact (mem_quoteLoop hmem).elim quote_ne_slash hquote
      · intro hmem
        exact (mem_quoteLoop hmem).elim (Ne.symm slash_ne_nul) hnul
    rw [List.cons_append, List.append_assoc, List.singleton_append, parseProgram, if_pos rfl,
      Bool.not_false, parseProgram_quoted hloop.1 hloop.2]
    rfl

/-- The blank that ends the name of the program is as good as the blanks behind it. -/
theorem dropWhile_parseProgram (hstop : m.Stops text) :
    (m.parseProgram false text).2.dropWhile (fun c => m.Blank c) =
      text.dropWhile fun c => m.Blank c := by
  cases text with
  | nil => rfl
  | cons c rest =>
    rcases hstop c rfl with rfl | hblank
    · rw [parseProgram, if_neg (Ne.symm quote_ne_nul), if_pos rfl]
    · rw [parseProgram, if_neg hblank.ne_quote, if_neg hblank.ne_nul, if_pos ⟨rfl, hblank⟩,
        List.dropWhile_cons, if_pos (decide_eq_true hblank)]

theorem parseItems_congr (h : text.dropWhile (fun c => m.Blank c) =
    other.dropWhile fun c => m.Blank c) (fuel : Nat) :
    m.parseItems fuel text = m.parseItems fuel other := by
  cases fuel with
  | zero => rfl
  | succ fuel => rw [parseItems, parseItems, h]

theorem quoteItem_head (hnul : m.nul ∉ item) :
    ∃ c rest, m.quoteItem item = c :: rest ∧ ¬ m.Blank c ∧ c ≠ m.nul := by
  rw [quoteItem]
  split
  · rename_i hplain
    cases item with
    | nil => exact absurd rfl hplain.1
    | cons c rest =>
      refine ⟨c, rest, rfl, (hplain.2 c List.mem_cons_self).1, ?_⟩
      rintro rfl
      exact hnul List.mem_cons_self
  · exact ⟨m.quote, _, rfl, quote_not_blank, quote_ne_nul⟩

theorem stops_items (items : List (List α)) (rest : List α) :
    m.Stops ((items.flatMap fun item => m.space :: m.quoteItem item) ++ m.nul :: rest) := by
  intro c hc
  cases items with
  | nil =>
    cases hc
    exact .inl rfl
  | cons item items =>
    cases hc
    exact .inr (.inl rfl)

theorem parseItems_items (hitems : ∀ item ∈ items, m.nul ∉ item) (hfuel : items.length ≤ fuel)
    (rest : List α) :
    m.parseItems fuel ((items.flatMap fun item => m.space :: m.quoteItem item) ++ m.nul :: rest) =
      items := by
  induction items generalizing fuel with
  | nil =>
    cases fuel with
    | zero => rfl
    | succ fuel =>
      have hnul : ¬ decide (m.Blank m.nul) = true := by
        rw [decide_eq_true_iff]
        exact nul_not_blank
      rw [List.flatMap_nil, List.nil_append, parseItems, List.dropWhile_cons, if_neg hnul]
      exact if_pos rfl
  | cons item items ih =>
    cases fuel with
    | zero => cases hfuel
    | succ fuel =>
      have hrest := ih (fun item hitem => hitems item (List.mem_cons_of_mem _ hitem))
        (Nat.le_of_succ_le_succ hfuel)
      have hnul := hitems item List.mem_cons_self
      obtain ⟨c, front, hquoted, hblank, hne⟩ := quoteItem_head hnul
      have hread := parseItem_quoteItem hnul (stops_items items rest)
      have hspace : decide (m.Blank m.space) = true := decide_eq_true (.inl rfl)
      have hfirst : ¬ decide (m.Blank c) = true := by
        rw [decide_eq_true_iff]
        exact hblank
      rw [hquoted] at hread
      rw [List.flatMap_cons, List.cons_append, List.cons_append, List.append_assoc, hquoted,
        parseItems, List.dropWhile_cons, if_pos hspace, List.cons_append, List.dropWhile_cons,
        if_neg hfirst]
      rw [List.cons_append] at hread
      exact (if_neg hne).trans (by rw [hread, hrest])

theorem length_items (items : List (List α)) :
    items.length ≤ (items.flatMap fun item => m.space :: m.quoteItem item).length := by
  induction items with
  | nil => exact Nat.le_refl _
  | cons item items ih =>
    rw [List.flatMap_cons, List.length_append, List.length_cons, List.length_cons]
    omega

/-- The items of a command line are read back as they were, whatever they hold. -/
theorem parseArgv_commandLine (hquote : m.quote ∉ program) (hprogram : m.nul ∉ program)
    (hitems : ∀ item ∈ items, m.nul ∉ item) (rest : List α) :
    (m.parseArgv (m.commandLine program items ++ m.nul :: rest)).2 = items := by
  have hfuel : items.length ≤ (m.commandLine program items ++ m.nul :: rest).length := by
    rw [commandLine, List.length_append, List.length_append]
    have hitems := length_items (m := m) items
    omega
  have hstop := stops_items (m := m) items rest
  rw [parseArgv]
  rw [commandLine, List.append_assoc] at hfuel ⊢
  rw [parseProgram_quoteItem hquote hprogram, parseItems_congr (dropWhile_parseProgram hstop),
    parseItems_items hitems hfuel]

end Marks
end ArgvQuoting
