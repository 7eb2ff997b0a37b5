import PmTiny.Core.AnsiEscapes

namespace PmTiny
set_option autoImplicit true

namespace Ansi

def valueFrom (num : Nat) (digits : List UInt8) : Nat :=
  digits.foldl (fun num digit => num * 10 + (digit - 0x30).toNat) num

def Digits (digits : List UInt8) : Prop := ∀ byte ∈ digits, isDigit byte = true

def SmallNumber (digits : List UInt8) : Prop := Digits digits ∧ valueFrom 0 digits ≤ 108

/-- A number that is read to its end: it is at most 108 before its last digit. -/
def ReadNumber (digits : List UInt8) : Prop :=
  Digits digits ∧ valueFrom 0 digits.dropLast ≤ 108

def Parameters (Number : List UInt8 → Prop) (parameters : List UInt8) : Prop :=
  Number parameters ∨
    ∃ number second, Number number ∧ Number second ∧ parameters = number ++ semicolon :: second

def ColourSequence (Number : List UInt8 → Prop) (seq : List UInt8) : Prop :=
  ∃ parameters, Parameters Number parameters ∧
    seq = escape :: bracket :: (parameters ++ [letterM])

def Unfinished (seq : List UInt8) : Prop :=
  ∃ parameters, Parameters ReadNumber parameters ∧ seq = escape :: bracket :: parameters

def StartsSmall (text : List UInt8) : Prop :=
  ∃ seq rest, ColourSequence SmallNumber seq ∧ text = seq ++ rest

/-- The text without its colour sequences: those with numbers up to 108 are all gone, others may
be, and every other byte is there. -/
inductive Cleaned : List UInt8 → List UInt8 → Prop where
  | nil : Cleaned [] []
  | sequence (hseq : ColourSequence Digits seq) (hrest : Cleaned rest pureText) :
      Cleaned (seq ++ rest) pureText
  | byte (hbyte : ¬ StartsSmall (byte :: rest)) (hrest : Cleaned rest pureText) :
      Cleaned (byte :: rest) (byte :: pureText)

/-- Whether an odd number of unfinished sequences stands at the end of a text, one directly behind
the other. -/
inductive Trailing : Bool → List UInt8 → Prop where
  | none (h : ∀ before seq, Unfinished seq → text ≠ before ++ seq) : Trailing false text
  | more (htext : Trailing odd text) (hseq : Unfinished seq) : Trailing (!odd) (text ++ seq)

/-- Some colour sequence stands directly behind an unfinished one whose own escape is read as the
beginning of a sequence. -/
def Hidden (text : List UInt8) : Prop :=
  ∃ before seq after, text = before ++ (seq ++ after) ∧ ColourSequence SmallNumber seq ∧
    Trailing true before

theorem le_valueFrom (num : Nat) (digits : List UInt8) : num ≤ valueFrom num digits := by
  induction digits generalizing num with
  | nil => exact Nat.le_refl _
  | cons digit digits ih =>
    have hrest := ih (num * 10 + (digit - 0x30).toNat)
    simp only [valueFrom, List.foldl_cons] at hrest ⊢
    omega

theorem parseNumeric_digits (h : Digits digits)
    (hsmall : digits ≠ [] → valueFrom num digits.dropLast ≤ 108)
    (hrest : ∀ byte ∈ rest.head?, isDigit byte = false) :
    parseNumeric num (digits ++ rest) = (digits, rest) := by
  induction digits generalizing num with
  | nil =>
    cases rest with
    | nil => rfl
    | cons byte rest =>
      have hbyte := hrest byte (List.head?_cons ..)
      rw [List.nil_append, parseNumeric, hbyte, Bool.false_and]
      rfl
  | cons digit digits ih =>
    have hdigit : isDigit digit = true := h digit List.mem_cons_self
    have hfirst := hsmall (List.cons_ne_nil _ _)
    have hnum : num ≤ 108 := Nat.le_trans (le_valueFrom _ _) hfirst
    have hlater : digits ≠ [] →
        valueFrom (num * 10 + (digit - 0x30).toNat) digits.dropLast ≤ 108 := by
      intro hne
      rw [List.dropLast_cons_of_ne_nil hne] at hfirst
      exact hfirst
    have hread := ih (fun byte hbyte => h byte (List.mem_cons_of_mem _ hbyte)) hlater
    rw [List.cons_append, parseNumeric, hdigit, Bool.true_and, if_pos (decide_eq_true hnum), hread]

theorem digits_of_parseNumeric (h : parseNumeric num text = (digits, rest)) :
    Digits digits ∧ (digits ≠ [] → valueFrom num digits.dropLast ≤ 108) := by
  induction text generalizing num digits with
  | nil =>
    cases h
    exact ⟨fun _ hbyte => absurd hbyte List.not_mem_nil, fun hne => absurd rfl hne⟩
  | cons first text ih =>
    rw [parseNumeric] at h
    split at h
    · rename_i hfirst
      rw [Bool.and_eq_true, decide_eq_true_eq] at hfirst
      obtain ⟨seen, left, hseen⟩ : ∃ seen left,
          parseNumeric (num * 10 + (first - 0x30).toNat) text = (seen, left) := ⟨_, _, rfl⟩
      rw [hseen] at h
      cases h
      obtain ⟨hdigits, hsmall⟩ := ih hseen
      constructor
      · intro byte hbyte
        rcases List.mem_cons.1 hbyte with rfl | hbyte
        · exact hfirst.1
        · exact hdigits byte hbyte
      · intro _
        by_cases hne : seen = []
        · rw [hne]
          exact hfirst.2
        · rw [List.dropLast_cons_of_ne_nil hne]
          exact hsmall hne
    · cases h
      exact ⟨fun _ hbyte => absurd hbyte List.not_mem_nil, fun hne => absurd rfl hne⟩

theorem readNumber_of_parseNumeric (h : parseNumeric 0 text = (digits, rest)) :
    ReadNumber digits := by
  obtain ⟨hdigits, hsmall⟩ := digits_of_parseNumeric h
  refine ⟨hdigits, ?_⟩
  by_cases hne : digits = []
  · rw [hne]
    exact Nat.zero_le _
  · exact hsmall hne

theorem ReadNumber.parse (h : ReadNumber digits)
    (hrest : ∀ byte ∈ rest.head?, isDigit byte = false) :
    parseNumeric 0 (digits ++ rest) = (digits, rest) :=
  parseNumeric_digits h.1 (fun _ => h.2) hrest

theorem SmallNumber.read (h : SmallNumber digits) : ReadNumber digits := by
  refine ⟨h.1, ?_⟩
  by_cases hne : digits = []
  · rw [hne]
    exact Nat.zero_le _
  · have hall := h.2
    rw [← List.dropLast_append_getLast hne, valueFrom, List.foldl_append] at hall
    exact Nat.le_trans (le_valueFrom _ [digits.getLast hne]) hall

theorem Parameters.imp (h : Parameters P parameters) (himp : ∀ digits, P digits → Q digits) :
    Parameters Q parameters := by
  rcases h with h | ⟨number, second, hnumber, hsecond, rfl⟩
  · exact .inl (himp _ h)
  · exact .inr ⟨number, second, himp _ hnumber, himp _ hsecond, rfl⟩

theorem Parameters.bytes (h : Parameters Digits parameters) :
    ∀ byte ∈ parameters, isDigit byte = true ∨ byte = semicolon := by
  intro byte hbyte
  rcases h with h | ⟨number, second, hnumber, hsecond, rfl⟩
  · exact .inl (h byte hbyte)
  · rcases List.mem_append.1 hbyte with hbyte | hbyte
    · exact .inl (hnumber byte hbyte)
    · rcases List.mem_cons.1 hbyte with rfl | hbyte
      · exact .inr rfl
      · exact .inl (hsecond byte hbyte)

theorem Parameters.escape_not_mem (h : Parameters Digits parameters) : escape ∉ parameters := by
  intro hmem
  rcases h.bytes escape hmem with hdigit | hsemicolon
  · exact absurd hdigit (by decide)
  · exact absurd hsemicolon (by decide)

theorem Parameters.letterM_not_mem (h : Parameters Digits parameters) :
    letterM ∉ parameters := by
  intro hmem
  rcases h.bytes letterM hmem with hdigit | hsemicolon
  · exact absurd hdigit (by decide)
  · exact absurd hsemicolon (by decide)

theorem Parameters.digits (h : Parameters ReadNumber parameters) :
    Parameters Digits parameters :=
  h.imp fun _ hread => hread.1

theorem Parameters.read (h : Parameters SmallNumber parameters) :
    Parameters ReadNumber parameters :=
  h.imp fun _ hsmall => hsmall.read

theorem Parameters.matchEscape_nil (h : Parameters ReadNumber parameters) :
    matchEscape parameters = .leftover := by
  have hnone : ∀ byte ∈ ([] : List UInt8).head?, isDigit byte = false :=
    fun _ hbyte => absurd hbyte (by simp only [List.head?_nil, Option.mem_def, reduceCtorEq,
      not_false_eq_true])
  rcases h with h | ⟨number, second, hnumber, hsecond, rfl⟩
  · have hparse := h.parse hnone
    rw [List.append_nil] at hparse
    rw [matchEscape, hparse]
  · have hparse := hsecond.parse hnone
    rw [List.append_nil] at hparse
    have hsemicolon : ∀ byte ∈ (semicolon :: second).head?, isDigit byte = false := by
      intro byte hbyte
      cases hbyte
      decide
    rw [matchEscape, hnumber.parse hsemicolon]
    simp only
    rw [if_neg (by decide), if_pos trivial, hparse]

theorem Parameters.matchEscape_letterM (h : Parameters ReadNumber parameters)
    (rest : List UInt8) :
    matchEscape (parameters ++ letterM :: rest) = .sequence (parameters ++ [letterM]) rest := by
  have hletter : ∀ byte ∈ (letterM :: rest).head?, isDigit byte = false := by
    intro byte hbyte
    cases hbyte
    decide
  rcases h with h | ⟨number, second, hnumber, hsecond, rfl⟩
  · rw [matchEscape, h.parse hletter]
    exact if_pos rfl
  · have hsemicolon : ∀ byte ∈ (semicolon :: (second ++ letterM :: rest)).head?,
        isDigit byte = false := by
      intro byte hbyte
      cases hbyte
      decide
    rw [matchEscape, List.append_assoc, List.cons_append, hnumber.parse hsemicolon]
    simp only
    rw [if_neg (by decide), if_pos trivial, hsecond.parse hletter]
    simp only
    rw [if_pos trivial, List.append_assoc, List.cons_append]

theorem parameters_of_leftover (h : matchEscape text = .leftover) :
    Parameters ReadNumber text := by
  obtain ⟨number, left, hnumber⟩ : ∃ number left, parseNumeric 0 text = (number, left) :=
    ⟨_, _, rfl⟩
  have htext := parseNumeric_eq 0 text
  have hread := readNumber_of_parseNumeric hnumber
  rw [matchEscape, hnumber] at h
  rw [hnumber] at htext
  cases left with
  | nil =>
    rw [List.append_nil] at htext
    rw [← htext]
    exact .inl hread
  | cons byte left =>
    simp only at h htext
    split at h
    · cases h
    · split at h
      · rename_i hsemicolon
        obtain ⟨second, last, hsecond⟩ : ∃ second last, parseNumeric 0 left = (second, last) :=
          ⟨_, _, rfl⟩
        have hleft := parseNumeric_eq 0 left
        have hreadSecond := readNumber_of_parseNumeric hsecond
        rw [hsecond] at h hleft
        cases last with
        | nil =>
          rw [List.append_nil] at hleft
          refine .inr ⟨number, second, hread, hreadSecond, ?_⟩
          rw [← htext, ← hleft, hsemicolon]
        | cons last after =>
          simp only at h
          split at h
          · cases h
          · cases h
      · cases h

theorem parameters_of_seen (h : matchEscape text ≠ .leftover) :
    ∃ parameters byte, (matchEscape text).seen = parameters ++ [byte] ∧
      Parameters ReadNumber parameters ∧
      ∀ seen rest, matchEscape text = .sequence seen rest → byte = letterM := by
  obtain ⟨number, left, hnumber⟩ : ∃ number left, parseNumeric 0 text = (number, left) :=
    ⟨_, _, rfl⟩
  have hread := readNumber_of_parseNumeric hnumber
  rw [matchEscape, hnumber] at h ⊢
  cases left with
  | nil => exact absurd rfl h
  | cons byte left =>
    simp only at h ⊢
    split
    · rename_i hletter
      exact ⟨number, byte, rfl, .inl hread, fun _ _ _ => hletter⟩
    · rename_i hletter
      rw [if_neg hletter] at h
      split
      · rename_i hsemicolon
        rw [if_pos hsemicolon] at h
        obtain ⟨second, last, hsecond⟩ : ∃ second last, parseNumeric 0 left = (second, last) :=
          ⟨_, _, rfl⟩
        have hreadSecond := readNumber_of_parseNumeric hsecond
        rw [hsecond] at h ⊢
        cases last with
        | nil => exact absurd rfl h
        | cons last after =>
          have hboth : Parameters ReadNumber (number ++ byte :: second) :=
            .inr ⟨number, second, hread, hreadSecond, by rw [hsemicolon]⟩
          have hseen : number ++ byte :: (second ++ [last]) =
              (number ++ byte :: second) ++ [last] := by
            rw [List.append_assoc, List.cons_append]
          simp only
          split
          · rename_i hlast
            exact ⟨_, last, hseen, hboth, fun _ _ _ => hlast⟩
          · exact ⟨_, last, hseen, hboth, fun _ _ hother => Match.noConfusion hother⟩
      · exact ⟨number, byte, rfl, .inl hread, fun _ _ hother => Match.noConfusion hother⟩

theorem parameters_of_sequence (h : matchEscape text = .sequence seen rest) :
    ∃ parameters, seen = parameters ++ [letterM] ∧ Parameters ReadNumber parameters := by
  have hmatched : matchEscape text ≠ .leftover := by
    rw [h]
    exact Match.noConfusion
  obtain ⟨parameters, byte, hseen, hread, hbyte⟩ := parameters_of_seen hmatched
  rw [h, hbyte _ _ h] at hseen
  exact ⟨parameters, hseen, hread⟩

theorem parameters_of_other (h : matchEscape text = .other seen rest) :
    ∃ parameters byte, seen = parameters ++ [byte] ∧ Parameters ReadNumber parameters := by
  have hmatched : matchEscape text ≠ .leftover := by
    rw [h]
    exact Match.noConfusion
  obtain ⟨parameters, byte, hseen, hread, -⟩ := parameters_of_seen hmatched
  rw [h] at hseen
  exact ⟨parameters, byte, hseen, hread⟩

/-- A text that starts with an escape, behind a text: it stands behind all of the beginning, or at
its start, when the beginning has no escape but there. -/
theorem append_escape_cases (hfirst : escape ∉ tokens)
    (h : before ++ escape :: after = first :: (tokens ++ rest)) :
    before = [] ∨ ∃ middle, before = first :: (tokens ++ middle) ∧
      rest = middle ++ escape :: after := by
  cases before with
  | nil => exact .inl rfl
  | cons head before =>
    rw [List.cons_append] at h
    obtain ⟨rfl, htail⟩ := List.cons.inj h
    right
    rcases List.append_eq_append_iff.1 htail with ⟨middle, htokens, hafter⟩
      | ⟨middle, hbefore, hrest⟩
    · cases middle with
      | nil =>
        rw [List.append_nil] at htokens
        refine ⟨[], ?_, hafter.symm⟩
        rw [htokens, List.append_nil]
      | cons byte middle =>
        obtain ⟨rfl, -⟩ := List.cons.inj hafter
        exact absurd (by rw [htokens]; exact List.mem_append_right _ List.mem_cons_self) hfirst
    · exact ⟨middle, by rw [hbefore], hrest⟩

theorem Unfinished.start (h : Unfinished seq) :
    ∃ parameters, seq = escape :: bracket :: parameters ∧ escape ∉ bracket :: parameters := by
  obtain ⟨parameters, hread, rfl⟩ := h
  refine ⟨parameters, rfl, ?_⟩
  rw [List.mem_cons]
  rintro (hbracket | hmem)
  · exact absurd hbracket (by decide)
  · exact hread.digits.escape_not_mem hmem

theorem ColourSequence.start (h : ColourSequence Digits seq) :
    ∃ tokens, seq = escape :: bracket :: tokens ∧ escape ∉ bracket :: tokens := by
  obtain ⟨parameters, hdigits, rfl⟩ := h
  refine ⟨parameters ++ [letterM], rfl, ?_⟩
  rw [List.mem_cons, List.mem_append, List.mem_singleton]
  rintro (hbracket | hmem | hletter)
  · exact absurd hbracket (by decide)
  · exact hdigits.escape_not_mem hmem
  · exact absurd hletter (by decide)

theorem ColourSequence.digits (h : ColourSequence SmallNumber seq) : ColourSequence Digits seq := by
  obtain ⟨parameters, hsmall, rfl⟩ := h
  exact ⟨parameters, hsmall.imp fun _ hnumber => hnumber.1, rfl⟩

theorem Trailing.exists (text : List UInt8) : ∃ odd, Trailing odd text := by
  obtain ⟨n, hn⟩ : ∃ n, n = text.length := ⟨_, rfl⟩
  induction n using Nat.strongRecOn generalizing text with
  | ind n ih =>
    by_cases h : ∃ before seq, Unfinished seq ∧ text = before ++ seq
    · obtain ⟨before, seq, hseq, rfl⟩ := h
      obtain ⟨parameters, hstart, -⟩ := hseq.start
      have hshorter : before.length < n := by
        rw [hn, hstart, List.length_append, List.length_cons]
        omega
      obtain ⟨odd, htrailing⟩ := ih _ hshorter before rfl
      exact ⟨!odd, .more htrailing hseq⟩
    · exact ⟨false, .none fun before seq hseq heq => h ⟨before, seq, hseq, heq⟩⟩

theorem Unfinished.unique (h : Unfinished seq) (h' : Unfinished seq')
    (heq : before ++ seq = before' ++ seq') : before = before' ∧ seq = seq' := by
  obtain ⟨parameters, rfl, hnone⟩ := h.start
  obtain ⟨parameters', rfl, hnone'⟩ := h'.start
  rcases List.append_eq_append_iff.1 heq with ⟨middle, hbefore, hseq⟩ | ⟨middle, hbefore, hseq⟩
  · cases middle with
    | nil => exact ⟨by rw [hbefore, List.append_nil], hseq⟩
    | cons byte middle =>
      obtain ⟨rfl, htail⟩ := List.cons.inj hseq
      exact absurd (by rw [htail]; exact List.mem_append_right _ List.mem_cons_self) hnone
  · cases middle with
    | nil => exact ⟨by rw [hbefore, List.append_nil], hseq.symm⟩
    | cons byte middle =>
      obtain ⟨rfl, htail⟩ := List.cons.inj hseq
      exact absurd (by rw [htail]; exact List.mem_append_right _ List.mem_cons_self) hnone'

theorem Trailing.unique (h : Trailing odd text) (h' : Trailing odd' text) : odd = odd' := by
  induction h generalizing odd' with
  | none hnone =>
    cases h' with
    | none _ => rfl
    | more _ hseq => exact absurd rfl (hnone _ _ hseq)
  | @more odd text seq htext hseq ih =>
    generalize hall : text ++ seq = all at h'
    cases h' with
    | none hnone => exact absurd hall.symm (hnone _ _ hseq)
    | @more odd' text' seq' htext' hseq' =>
      obtain ⟨rfl, rfl⟩ := hseq.unique hseq' hall
      rw [ih htext']

theorem trailing_nil : Trailing false [] := by
  apply Trailing.none
  intro before seq hseq hnil
  obtain ⟨parameters, rfl, -⟩ := hseq.start
  exact List.append_ne_nil_of_right_ne_nil before (List.cons_ne_nil _ _) hnil.symm

theorem Trailing.append (h : Trailing odd text) (hnone : escape ∉ tokens)
    (hfirst : ∀ start, start <+: text → ¬ Unfinished (first :: (tokens ++ start))) :
    Trailing odd (first :: (tokens ++ text)) := by
  induction h with
  | @none text hends =>
    apply Trailing.none
    intro before seq hseq heq
    obtain ⟨parameters, rfl, -⟩ := hseq.start
    rcases append_escape_cases hnone heq.symm with rfl | ⟨middle, -, htext⟩
    · exact hfirst text List.prefix_rfl (by rw [heq]; exact hseq)
    · exact hends middle _ hseq htext
  | @more odd text seq _ hseq ih =>
    have hbefore := ih fun start hstart => hfirst start (hstart.trans (List.prefix_append _ _))
    have hall := hbefore.more hseq
    rw [List.cons_append, List.append_assoc] at hall
    exact hall

/-- An unfinished sequence and the escape behind it do not count either: what starts with that
escape comes second. -/
theorem Trailing.swallow (h : Trailing odd text) (hseq : Unfinished seq) :
    Trailing odd (seq ++ escape :: text) := by
  induction h with
  | @none text hends =>
    have hone : Trailing true seq := trailing_nil.more hseq
    by_cases hsecond : Unfinished (escape :: text)
    · exact hone.more hsecond
    · obtain ⟨parameters, rfl, hnone⟩ := hseq.start
      apply Trailing.none
      intro before last hlast heq
      obtain ⟨parameters', rfl, hnone'⟩ := hlast.start
      rcases append_escape_cases hnone heq.symm with rfl | ⟨middle, -, htext⟩
      · rw [List.nil_append] at heq
        have hmem : escape ∈ bracket :: parameters' := by
          rw [← (List.cons.inj heq).2]
          exact List.mem_append_right _ List.mem_cons_self
        exact hnone' hmem
      · cases middle with
        | nil => exact hsecond (by rw [htext]; exact hlast)
        | cons byte middle => exact hends middle _ hlast (List.cons.inj htext).2
  | @more odd text last _ hlast ih =>
    have hall := ih.more hlast
    rw [List.append_assoc, List.cons_append] at hall
    exact hall

theorem trailing_append_iff (hnone : escape ∉ tokens)
    (hfirst : ∀ start, start <+: text → ¬ Unfinished (first :: (tokens ++ start))) :
    Trailing odd (first :: (tokens ++ text)) ↔ Trailing odd text := by
  constructor
  · intro h
    obtain ⟨odd', htext⟩ := Trailing.exists text
    rw [h.unique (htext.append hnone hfirst)]
    exact htext
  · exact fun h => h.append hnone hfirst

theorem trailing_swallow_iff (hseq : Unfinished seq) :
    Trailing odd (seq ++ escape :: text) ↔ Trailing odd text := by
  constructor
  · intro h
    obtain ⟨odd', htext⟩ := Trailing.exists text
    rw [h.unique (htext.swallow hseq)]
    exact htext
  · exact fun h => h.swallow hseq

theorem not_hidden_of_not_mem (h : letterM ∉ text) : ¬ Hidden text := by
  rintro ⟨before, seq, after, rfl, ⟨parameters, -, rfl⟩, -⟩
  apply h
  apply List.mem_append_right
  apply List.mem_append_left
  exact List.mem_cons_of_mem _ (List.mem_cons_of_mem _ (List.mem_append_right _
    List.mem_cons_self))

theorem hidden_append_iff (hnone : escape ∉ tokens)
    (hfirst : ∀ start, start <+: rest → ¬ Unfinished (first :: (tokens ++ start))) :
    Hidden (first :: (tokens ++ rest)) ↔ Hidden rest := by
  constructor
  · rintro ⟨before, seq, after, heq, hseq, htrailing⟩
    obtain ⟨letters, rfl, -⟩ := hseq.digits.start
    rcases append_escape_cases hnone heq.symm with rfl | ⟨middle, rfl, hrest⟩
    · exact Bool.noConfusion (htrailing.unique trailing_nil)
    · refine ⟨middle, _, after, hrest, hseq, (trailing_append_iff hnone ?_).1 htrailing⟩
      intro start hstart
      apply hfirst start
      rw [hrest]
      exact hstart.trans (List.prefix_append _ _)
  · rintro ⟨before, seq, after, rfl, hseq, htrailing⟩
    refine ⟨first :: (tokens ++ before), seq, after, ?_, hseq, htrailing.append hnone ?_⟩
    · rw [List.cons_append, List.append_assoc]
    · exact fun start hstart => hfirst start (hstart.trans (List.prefix_append _ _))

theorem hidden_swallow_iff (hseq : Unfinished seq) :
    Hidden (seq ++ escape :: rest) ↔ StartsSmall (escape :: rest) ∨ Hidden rest := by
  constructor
  · rintro ⟨before, small, after, heq, hsmall, htrailing⟩
    obtain ⟨letters, rfl, -⟩ := hsmall.digits.start
    obtain ⟨parameters, rfl, hnone⟩ := hseq.start
    rcases append_escape_cases hnone heq.symm with rfl | ⟨middle, rfl, hrest⟩
    · exact Bool.noConfusion (htrailing.unique trailing_nil)
    · cases middle with
      | nil => exact .inl ⟨_, after, hsmall, hrest⟩
      | cons byte middle =>
        obtain ⟨rfl, hmiddle⟩ := List.cons.inj hrest
        exact .inr ⟨middle, _, after, hmiddle, hsmall, (trailing_swallow_iff hseq).1 htrailing⟩
  · rintro (⟨small, after, hsmall, hrest⟩ | ⟨before, small, after, rfl, hsmall, htrailing⟩)
    · exact ⟨seq, small, after, by rw [hrest], hsmall, trailing_nil.more hseq⟩
    · refine ⟨seq ++ escape :: before, small, after, ?_, hsmall, htrailing.swallow hseq⟩
      rw [List.append_assoc, List.cons_append]

open scoped Classical in
noncomputable def smallCount (seq : List UInt8) : Nat :=
  if ColourSequence SmallNumber seq then 1 else 0

open scoped Classical in
noncomputable def occurrences : List UInt8 → Nat
  | [] => 0
  | byte :: rest => (if StartsSmall (byte :: rest) then 1 else 0) + occurrences rest

/-- Some colour sequences were removed, with how many of them have small numbers. -/
inductive Reduced : List UInt8 → List UInt8 → Nat → Prop where
  | nil : Reduced [] [] 0
  | sequence (hseq : ColourSequence Digits seq) (hrest : Reduced rest pureText removed) :
      Reduced (seq ++ rest) pureText (smallCount seq + removed)
  | byte (hrest : Reduced rest pureText removed) :
      Reduced (byte :: rest) (byte :: pureText) removed

/-- The number of small sequences when every escape opens one and every last letter closes the one
opened last: removing one of them leaves the others as they are. -/
noncomputable def closings : List (List UInt8) → List UInt8 → Nat
  | _, [] => 0
  | [], byte :: rest => if byte = escape then closings [[]] rest else closings [] rest
  | opened :: outer, byte :: rest =>
    if byte = escape then closings ([] :: opened :: outer) rest
    else if byte = letterM then
      smallCount (escape :: (opened ++ [letterM])) + closings outer rest
    else closings ((opened ++ [byte]) :: outer) rest

theorem closings_escape (outer : List (List UInt8)) (rest : List UInt8) :
    closings outer (escape :: rest) = closings ([] :: outer) rest := by
  cases outer with
  | nil => rw [closings, if_pos rfl]
  | cons opened outer => rw [closings, if_pos rfl]

theorem closings_append (hescape : escape ∉ tokens) (hletter : letterM ∉ tokens) :
    closings (opened :: outer) (tokens ++ rest) = closings ((opened ++ tokens) :: outer) rest := by
  induction tokens generalizing opened with
  | nil => rw [List.nil_append, List.append_nil]
  | cons byte tokens ih =>
    rw [List.mem_cons, not_or] at hescape hletter
    rw [List.cons_append, closings, if_neg (Ne.symm hescape.1), if_neg (Ne.symm hletter.1),
      ih hescape.2 hletter.2, List.append_assoc, List.singleton_append]

theorem closings_sequence (hseq : ColourSequence Digits seq) :
    closings outer (seq ++ rest) = smallCount seq + closings outer rest := by
  obtain ⟨parameters, hdigits, rfl⟩ := hseq
  have hescape : escape ∉ bracket :: parameters := by
    rw [List.mem_cons, not_or]
    exact ⟨by decide, hdigits.escape_not_mem⟩
  have hletter : letterM ∉ bracket :: parameters := by
    rw [List.mem_cons, not_or]
    exact ⟨by decide, hdigits.letterM_not_mem⟩
  have hclosed : closings ([] :: outer) ((bracket :: parameters) ++ letterM :: rest) =
      closings ((bracket :: parameters) :: outer) (letterM :: rest) :=
    closings_append hescape hletter
  rw [List.cons_append, closings_escape, List.cons_append, List.append_assoc,
    List.singleton_append, ← List.cons_append, hclosed, closings, if_neg (by decide), if_pos rfl,
    List.cons_append]

theorem Reduced.closings (h : Reduced body pureText removed) (outer : List (List UInt8)) :
    closings outer body = removed + closings outer pureText := by
  induction h generalizing outer with
  | nil => rw [Nat.zero_add]
  | sequence hseq _ ih => rw [closings_sequence hseq, ih, Nat.add_assoc]
  | byte _ ih =>
    cases outer with
    | nil =>
      rw [Ansi.closings, Ansi.closings]
      split
      · exact ih _
      · exact ih _
    | cons opened outer =>
      rw [Ansi.closings, Ansi.closings]
      split
      · exact ih _
      · split
        · rw [ih, Nat.add_left_comm]
        · exact ih _

theorem Reduced.append (h : Reduced body pureText removed) (tokens : List UInt8) :
    Reduced (tokens ++ body) (tokens ++ pureText) removed := by
  induction tokens with
  | nil => exact h
  | cons byte tokens ih => exact ih.byte

theorem StartsSmall.head (h : StartsSmall (first :: rest)) :
    first = escape ∧ rest.head? = some bracket := by
  obtain ⟨seq, after, ⟨parameters, -, rfl⟩, htext⟩ := h
  obtain ⟨rfl, rfl⟩ := List.cons.inj htext
  exact ⟨rfl, rfl⟩

theorem occurrences_append (h : escape ∉ tokens) :
    occurrences (tokens ++ rest) = occurrences rest := by
  induction tokens with
  | nil => rfl
  | cons byte tokens ih =>
    rw [List.mem_cons, not_or] at h
    rw [List.cons_append, occurrences, if_neg fun hsmall => h.1 hsmall.head.1.symm, ih h.2,
      Nat.zero_add]

theorem append_letterM_inj (hxs : letterM ∉ xs) (hys : letterM ∉ ys)
    (h : xs ++ letterM :: after = ys ++ letterM :: after') : xs = ys := by
  rcases List.append_eq_append_iff.1 h with ⟨middle, rfl, htail⟩ | ⟨middle, rfl, htail⟩
  · cases middle with
    | nil => rw [List.append_nil]
    | cons byte middle =>
      rw [(List.cons.inj htail).1] at hys
      exact absurd (List.mem_append_right _ List.mem_cons_self) hys
  · cases middle with
    | nil => rw [List.append_nil]
    | cons byte middle =>
      rw [(List.cons.inj htail).1] at hxs
      exact absurd (List.mem_append_right _ List.mem_cons_self) hxs

theorem startsSmall_sequence_iff (hseq : ColourSequence Digits seq) :
    StartsSmall (seq ++ rest) ↔ ColourSequence SmallNumber seq := by
  constructor
  · rintro ⟨small, after, ⟨parameters, hsmall, rfl⟩, htext⟩
    obtain ⟨parameters', hdigits, rfl⟩ := hseq
    have htail : parameters' ++ [letterM] ++ rest = parameters ++ [letterM] ++ after :=
      (List.cons.inj (List.cons.inj htext).2).2
    rw [List.append_assoc, List.append_assoc] at htail
    rw [append_letterM_inj hdigits.letterM_not_mem hsmall.read.digits.letterM_not_mem htail]
    exact ⟨parameters, hsmall, rfl⟩
  · exact fun hsmall => ⟨seq, rest, hsmall, rfl⟩

theorem occurrences_sequence (hseq : ColourSequence Digits seq) :
    occurrences (seq ++ rest) = smallCount seq + occurrences rest := by
  have hiff : StartsSmall (seq ++ rest) ↔ ColourSequence SmallNumber seq :=
    startsSmall_sequence_iff hseq
  obtain ⟨tokens, rfl, hnone⟩ := hseq.start
  rw [List.cons_append] at hiff ⊢
  rw [occurrences, occurrences_append hnone, smallCount]
  by_cases hsmall : ColourSequence SmallNumber (escape :: bracket :: tokens)
  · rw [if_pos hsmall, if_pos (hiff.2 hsmall)]
  · rw [if_neg hsmall, if_neg fun hstarts => hsmall (hiff.1 hstarts)]

theorem Cleaned.reduced (h : Cleaned body pureText) :
    Reduced body pureText (occurrences body) := by
  induction h with
  | nil => exact .nil
  | sequence hseq _ ih =>
    rw [occurrences_sequence hseq]
    exact ih.sequence hseq
  | byte hbyte _ ih =>
    rw [occurrences, if_neg hbyte, Nat.zero_add]
    exact ih.byte

theorem Cleaned.append (h : Cleaned body pureText) (hnone : escape ∉ tokens) :
    Cleaned (tokens ++ body) (tokens ++ pureText) := by
  induction tokens with
  | nil => exact h
  | cons byte tokens ih =>
    rw [List.mem_cons, not_or] at hnone
    exact (ih hnone.2).byte fun hsmall => hnone.1 hsmall.head.1.symm

theorem Cleaned.eq_of_not_mem (h : Cleaned body pureText) (hnone : escape ∉ body) :
    pureText = body := by
  induction h with
  | nil => rfl
  | sequence hseq _ _ =>
    obtain ⟨tokens, rfl, -⟩ := hseq.start
    exact absurd List.mem_cons_self hnone
  | byte _ _ ih => rw [ih fun hmem => hnone (List.mem_cons_of_mem _ hmem)]

/-- What the scanner did with a text: what it gave as the truncated end is behind the body, and
every hidden sequence is missing among those it removed. -/
structure Accounted (text body pureText truncateText : List UInt8) (removed : Nat) : Prop where
  text_eq : text = body ++ truncateText
  truncated : ∀ byte ∈ truncateText.head?, byte = escape
  reduced : Reduced body pureText removed
  removed_le : removed ≤ occurrences body
  hidden : Hidden text → removed < occurrences body
  cleaned : ¬ Hidden text → Cleaned body pureText

theorem Accounted.unread (h : letterM ∉ text) (hstart : ∀ byte ∈ text.head?, byte = escape) :
    Accounted text [] [] text 0 where
  text_eq := rfl
  truncated := hstart
  reduced := .nil
  removed_le := Nat.zero_le _
  hidden := fun hhidden => absurd hhidden (not_hidden_of_not_mem h)
  cleaned := fun _ => .nil

theorem head?_of_isPrefix {front text : List UInt8} (h : front <+: text)
    (hhead : front.head? = some byte) : text.head? = some byte := by
  obtain ⟨rest, rfl⟩ := h
  cases front with
  | nil => cases hhead
  | cons first front => exact hhead

theorem Accounted.plain (h : Accounted rest body pureText truncateText removed)
    (hbracket : ¬ (first = escape ∧ rest.head? = some bracket)) :
    Accounted (first :: rest) (first :: body) (first :: pureText) truncateText removed := by
  have hhidden : Hidden (first :: rest) ↔ Hidden rest := by
    apply hidden_append_iff List.not_mem_nil
    rintro start hstart ⟨parameters, -, hseq⟩
    obtain ⟨rfl, rfl⟩ := List.cons.inj hseq
    exact hbracket ⟨rfl, head?_of_isPrefix hstart rfl⟩
  have hsmall : ¬ StartsSmall (first :: body) := by
    intro hstarts
    have hbody : body <+: rest := ⟨_, h.text_eq.symm⟩
    exact hbracket ⟨hstarts.head.1, head?_of_isPrefix hbody hstarts.head.2⟩
  constructor
  · rw [List.cons_append, ← h.text_eq]
  · exact h.truncated
  · exact h.reduced.byte
  · rw [occurrences, if_neg hsmall, Nat.zero_add]
    exact h.removed_le
  · intro hfirst
    rw [occurrences, if_neg hsmall, Nat.zero_add]
    exact h.hidden (hhidden.1 hfirst)
  · intro hfirst
    exact (h.cleaned fun hrest => hfirst (hhidden.2 hrest)).byte hsmall

theorem not_unfinished_of_match (h : matchEscape text ≠ .leftover) :
    ¬ Unfinished (escape :: bracket :: text) := by
  rintro ⟨parameters, hread, heq⟩
  rw [(List.cons.inj (List.cons.inj heq).2).2] at h
  exact h hread.matchEscape_nil

theorem Accounted.sequence (h : Accounted after body pureText truncateText removed)
    (hmatch : matchEscape rest = .sequence seen after) :
    Accounted (escape :: bracket :: rest) (escape :: bracket :: (seen ++ body)) pureText
      truncateText (smallCount (escape :: bracket :: seen) + removed) := by
  obtain ⟨parameters, hseen, hread⟩ := parameters_of_sequence hmatch
  have hseq : ColourSequence Digits (escape :: bracket :: seen) :=
    ⟨parameters, hread.digits, by rw [hseen]⟩
  obtain ⟨tokens, htokens, hnone⟩ := hseq.start
  have hrest := (matchEscape_sequence hmatch).1
  have hhidden : Hidden (escape :: ((bracket :: seen) ++ after)) ↔ Hidden after := by
    rw [← (List.cons.inj htokens).2] at hnone
    apply hidden_append_iff hnone
    intro front _
    have hmore : matchEscape (seen ++ front) ≠ .leftover := by
      rw [matchEscape_sequence_append hmatch]
      exact Match.noConfusion
    exact not_unfinished_of_match hmore
  rw [hrest]
  have hcount : occurrences (_ ++ body) = _ := occurrences_sequence hseq
  constructor
  · rw [List.cons_append, List.cons_append, List.append_assoc, ← h.text_eq]
  · exact h.truncated
  · exact h.reduced.sequence hseq
  · exact hcount ▸ Nat.add_le_add_left h.removed_le _
  · intro hall
    exact hcount ▸ Nat.add_lt_add_left (h.hidden (hhidden.1 hall)) _
  · intro hall
    exact (h.cleaned fun hafter => hall (hhidden.2 hafter)).sequence hseq

theorem not_startsSmall_of_other (h : matchEscape text = .other seen rest) :
    ¬ StartsSmall (escape :: bracket :: text) := by
  rintro ⟨seq, after, ⟨parameters, hsmall, rfl⟩, htext⟩
  have htail : text = parameters ++ [letterM] ++ after := (List.cons.inj (List.cons.inj htext).2).2
  rw [htail, List.append_assoc, List.singleton_append, hsmall.read.matchEscape_letterM] at h
  cases h

theorem Accounted.other (h : Accounted after body pureText truncateText removed)
    (hmatch : matchEscape rest = .other seen after) (hnone : escape ∉ seen) :
    Accounted (escape :: bracket :: rest) (escape :: bracket :: (seen ++ body))
      (escape :: bracket :: (seen ++ pureText)) truncateText removed := by
  have htokens : escape ∉ bracket :: seen := by
    rw [List.mem_cons, not_or]
    exact ⟨by decide, hnone⟩
  have hhidden : Hidden (escape :: ((bracket :: seen) ++ after)) ↔ Hidden after := by
    apply hidden_append_iff htokens
    intro front _
    have hmore : matchEscape (seen ++ front) ≠ .leftover := by
      rw [matchEscape_other_append hmatch]
      exact Match.noConfusion
    exact not_unfinished_of_match hmore
  have hsmall : ¬ StartsSmall (escape :: ((bracket :: seen) ++ body)) :=
    not_startsSmall_of_other (matchEscape_other_append hmatch body)
  have hcount : occurrences (escape :: ((bracket :: seen) ++ body)) = occurrences body := by
    rw [occurrences, if_neg hsmall, Nat.zero_add, occurrences_append htokens]
  rw [(matchEscape_other hmatch).1]
  constructor
  · rw [List.cons_append, List.cons_append, List.append_assoc, ← h.text_eq]
  · exact h.truncated
  · exact h.reduced.append (escape :: bracket :: seen)
  · exact hcount ▸ h.removed_le
  · intro hall
    exact hcount ▸ h.hidden (hhidden.1 hall)
  · intro hall
    exact ((h.cleaned fun hafter => hall (hhidden.2 hafter)).append htokens).byte hsmall

theorem startsSmall_of_append (h : StartsSmall (escape :: (body ++ rest)))
    (hrest : ∀ byte ∈ rest.head?, byte = escape) : StartsSmall (escape :: body) := by
  cases rest with
  | nil =>
    rw [List.append_nil] at h
    exact h
  | cons byte rest =>
    obtain ⟨seq, after, hseq, htext⟩ := h
    have hbyte : byte = escape := hrest byte rfl
    obtain ⟨tokens, rfl, hnone⟩ := hseq.digits.start
    rw [hbyte, ← List.cons_append] at htext
    rcases append_escape_cases hnone htext with hnil | ⟨middle, hbody, -⟩
    · exact absurd hnil (List.cons_ne_nil _ _)
    · exact ⟨_, middle, hseq, hbody⟩

/-- A match that fails on an escape: what starts with that escape is not seen. -/
theorem Accounted.swallow (h : Accounted after body pureText truncateText removed)
    (hmatch : matchEscape rest = .other (parameters ++ [escape]) after)
    (hread : Parameters ReadNumber parameters) :
    Accounted (escape :: bracket :: rest) (escape :: bracket :: (parameters ++ escape :: body))
      (escape :: bracket :: (parameters ++ escape :: pureText)) truncateText removed := by
  have hseq : Unfinished (escape :: bracket :: parameters) := ⟨parameters, hread, rfl⟩
  have hhidden : Hidden (escape :: bracket :: rest) ↔
      StartsSmall (escape :: after) ∨ Hidden after := by
    rw [(matchEscape_other hmatch).1, List.append_assoc, List.singleton_append]
    exact hidden_swallow_iff hseq
  have hafter : StartsSmall (escape :: after) ↔ StartsSmall (escape :: body) := by
    rw [h.text_eq]
    constructor
    · exact fun hsmall => startsSmall_of_append hsmall h.truncated
    · rintro ⟨seq, last, hsmall, htext⟩
      refine ⟨seq, last ++ truncateText, hsmall, ?_⟩
      rw [← List.cons_append, htext, List.append_assoc]
  have htokens : escape ∉ bracket :: parameters := by
    rw [List.mem_cons, not_or]
    exact ⟨by decide, hread.digits.escape_not_mem⟩
  have hsmall : ¬ StartsSmall (escape :: ((bracket :: parameters) ++ escape :: body)) := by
    have hmore := not_startsSmall_of_other (matchEscape_other_append hmatch body)
    rw [List.append_assoc, List.singleton_append] at hmore
    exact hmore
  have hcount : occurrences (escape :: ((bracket :: parameters) ++ escape :: body)) =
      occurrences (escape :: body) := by
    rw [occurrences, if_neg hsmall, Nat.zero_add, occurrences_append htokens]
  have hone : occurrences body ≤ occurrences (escape :: body) := Nat.le_add_left _ _
  constructor
  · rw [(matchEscape_other hmatch).1, h.text_eq]
    simp only [List.append_assoc, List.cons_append, List.nil_append]
  · exact h.truncated
  · exact h.reduced.byte.append (escape :: bracket :: parameters)
  · exact hcount ▸ Nat.le_trans h.removed_le hone
  · intro hall
    have hless : removed < occurrences (escape :: body) := by
      rcases hhidden.1 hall with hstarts | hlater
      · rw [occurrences, if_pos (hafter.1 hstarts)]
        exact Nat.lt_of_le_of_lt h.removed_le (Nat.lt_add_of_pos_left Nat.one_pos)
      · exact Nat.lt_of_lt_of_le (h.hidden hlater) hone
    exact hcount ▸ hless
  · intro hall
    have hbody := h.cleaned fun hlater => hall (hhidden.2 (.inr hlater))
    have hnext := hbody.byte fun hstarts => hall (hhidden.2 (.inl (hafter.2 hstarts)))
    exact (hnext.append htokens).byte hsmall

theorem scan_accounted (text : List UInt8) :
    ∃ body removed, Accounted text body (scan text).1 (scan text).2 removed := by
  obtain ⟨n, hn⟩ : ∃ n, n = text.length := ⟨_, rfl⟩
  induction n using Nat.strongRecOn generalizing text with
  | ind n ih =>
    cases start text with
    | empty =>
      rw [scan_nil]
      refine ⟨[], 0, .unread List.not_mem_nil ?_⟩
      intro byte hbyte
      cases hbyte
    | escape =>
      rw [scan_escape]
      refine ⟨[], 0, .unread (by decide) ?_⟩
      intro byte hbyte
      cases hbyte
      rfl
    | @plain first rest hbracket hlast =>
      obtain ⟨body, removed, hrest⟩ :=
        ih rest.length (by rw [hn]; exact Nat.lt_succ_self _) rest rfl
      rw [scan_plain hbracket hlast]
      exact ⟨_, _, hrest.plain hbracket⟩
    | @leftover rest h =>
      rw [scan_leftover h]
      refine ⟨[], 0, .unread ?_ ?_⟩
      · rw [List.mem_cons, List.mem_cons, not_or, not_or]
        exact ⟨by decide, by decide, (parameters_of_leftover h).digits.letterM_not_mem⟩
      · intro byte hbyte
        cases hbyte
        rfl
    | @sequence rest seen after h =>
      have hlength := congrArg List.length (matchEscape_sequence h).1
      rw [List.length_append] at hlength
      simp only [List.length_cons] at hn
      obtain ⟨body, removed, hafter⟩ := ih _ (by omega) after rfl
      rw [scan_sequence h]
      exact ⟨_, _, hafter.sequence h⟩
    | @other rest seen after h =>
      have hlength := congrArg List.length (matchEscape_other h).1
      rw [List.length_append] at hlength
      simp only [List.length_cons] at hn
      obtain ⟨body, removed, hafter⟩ := ih _ (by omega) after rfl
      obtain ⟨parameters, byte, rfl, hread⟩ := parameters_of_other h
      rw [scan_other h]
      by_cases hbyte : byte = escape
      · subst hbyte
        rw [List.append_assoc, List.singleton_append]
        exact ⟨_, _, hafter.swallow h hread⟩
      · refine ⟨_, _, hafter.other h ?_⟩
        rw [List.mem_append, List.mem_singleton, not_or]
        exact ⟨hread.digits.escape_not_mem, Ne.symm hbyte⟩

/-- The pure text is the text before the truncated end without its colour sequences. -/
def Filters (text : List UInt8) : Prop :=
  ∃ body, text = body ++ (removeANSIEscapeCode text).2 ∧
    Cleaned body (removeANSIEscapeCode text).1

theorem not_filters_of_hidden (hlength : text.length < 2 ^ 31) (h : Hidden text) :
    ¬ Filters text := by
  rintro ⟨body, htext, hcleaned⟩
  rw [removeANSIEscapeCode_of_lt hlength] at htext hcleaned
  obtain ⟨body', removed, haccounted⟩ := scan_accounted text
  have hbody : body' = body := List.append_cancel_right (haccounted.text_eq.symm.trans htext)
  have hless := haccounted.hidden h
  have hremoved := haccounted.reduced.closings []
  have hall := hcleaned.reduced.closings []
  rw [hbody] at hless hremoved
  omega

theorem filters_of_not_hidden (hlength : text.length < 2 ^ 31) (h : ¬ Hidden text) :
    Filters text := by
  obtain ⟨body, removed, haccounted⟩ := scan_accounted text
  rw [Filters, removeANSIEscapeCode_of_lt hlength]
  exact ⟨body, haccounted.text_eq, haccounted.cleaned h⟩

theorem not_filters_of_long (hlength : 2 ^ 31 ≤ text.length) (hnone : escape ∉ text) :
    ¬ Filters text := by
  rintro ⟨body, htext, hcleaned⟩
  obtain ⟨front, hfront⟩ : ∃ front, front = text.take (textLength text).toNat := ⟨_, rfl⟩
  have hshort : front.length < 2 ^ 31 := by
    have hlt : textLength text < ((2 ^ 32 : Nat) + 1) / 2 := Int.bmod_lt (by omega)
    rw [hfront, List.length_take]
    omega
  rw [removeANSIEscapeCode, ← hfront] at htext hcleaned
  have hbody : escape ∉ body := by
    rw [htext, List.mem_append, not_or] at hnone
    exact hnone.1
  have hall := scan_length front
  have hsum := congrArg List.length htext
  rw [hcleaned.eq_of_not_mem hbody] at hall
  rw [List.length_append] at hsum
  omega

/-- The filter removes every colour sequence exactly when none is hidden, as long as the bytes can
be counted in an `int`; a longer text without any sequence is cut short. -/
theorem filters_iff_not_hidden (text : List UInt8) :
    (text.length < 2 ^ 31 → (Filters text ↔ ¬ Hidden text)) ∧
      (2 ^ 31 ≤ text.length → escape ∉ text → ¬ Filters text) := by
  constructor
  · intro hlength
    constructor
    · intro hfilters hhidden
      exact not_filters_of_hidden hlength hhidden hfilters
    · exact filters_of_not_hidden hlength
  · exact not_filters_of_long

theorem filters_iff_not_hidden_reset : Filters [escape, bracket, letterM] := by
  apply ((filters_iff_not_hidden _).1 (by
    show 3 < 2 ^ 31
    omega)).2
  have hiff : Hidden (escape :: ([bracket, letterM] ++ [])) ↔ Hidden [] := by
    apply hidden_append_iff (by decide)
    intro front _
    have hmore : matchEscape (letterM :: front) ≠ .leftover := by
      have hempty : Parameters ReadNumber [] :=
        .inl ⟨fun _ hbyte => absurd hbyte List.not_mem_nil, Nat.zero_le _⟩
      have hmatch := hempty.matchEscape_letterM front
      rw [List.nil_append] at hmatch
      rw [hmatch]
      exact Match.noConfusion
    exact not_unfinished_of_match hmore
  exact fun hhidden => not_hidden_of_not_mem List.not_mem_nil (hiff.1 hhidden)

theorem filters_fails_behind_unfinished :
    ¬ Filters [escape, bracket, escape, bracket, 0x30, letterM] := by
  have hzero : SmallNumber [0x30] := by
    constructor
    · intro byte hbyte
      rw [List.mem_singleton.1 hbyte]
      rfl
    · simp [valueFrom]
  have hempty : Parameters ReadNumber [] :=
    .inl ⟨fun _ hbyte => absurd hbyte List.not_mem_nil, Nat.zero_le _⟩
  apply not_filters_of_hidden
  · show 6 < 2 ^ 31
    omega
  · exact ⟨[escape, bracket], [escape, bracket, 0x30, letterM], [], rfl, ⟨[0x30], .inl hzero, rfl⟩,
      trailing_nil.more ⟨[], hempty, rfl⟩⟩

end Ansi

end PmTiny
