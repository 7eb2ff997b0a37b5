import Mathlib.Algebra.Ring.Nat
import Mathlib.Data.List.Basic
import Mathlib.Tactic.Common

namespace PmTiny
set_option autoImplicit true

namespace Ansi

def escape : UInt8 := 0x1b

def bracket : UInt8 := 0x5b

def semicolon : UInt8 := 0x3b

def letterM : UInt8 := 0x6d

def isDigit (byte : UInt8) : Bool := 0x30 ≤ byte && byte ≤ 0x39

/-- The digits that `parse_numeric` goes over, and what comes after them. It stops after the digit
that makes the number larger than 108. -/
def parseNumeric : Nat → List UInt8 → List UInt8 × List UInt8
  | _, [] => ([], [])
  | num, byte :: rest =>
    if isDigit byte && num ≤ 108 then
      let (digits, rest) := parseNumeric (num * 10 + (byte - 0x30).toNat) rest
      (byte :: digits, rest)
    else ([], byte :: rest)

/-- What the bytes after an escape and a bracket are: they end too early, or they are the rest of a
sequence, or they are not, and the bytes gone over belong to the text. -/
inductive Match where
  | leftover
  | sequence (seen rest : List UInt8)
  | other (seen rest : List UInt8)
  deriving DecidableEq, Repr

def matchEscape (text : List UInt8) : Match :=
  let (number, rest) := parseNumeric 0 text
  match rest with
  | [] => .leftover
  | byte :: rest =>
    if byte = letterM then .sequence (number ++ [byte]) rest
    else if byte = semicolon then
      let (second, rest) := parseNumeric 0 rest
      match rest with
      | [] => .leftover
      | last :: rest =>
        if last = letterM then .sequence (number ++ byte :: (second ++ [last])) rest
        else .other (number ++ byte :: (second ++ [last])) rest
    else .other (number ++ [byte]) rest

theorem parseNumeric_eq (num : Nat) (text : List UInt8) :
    (parseNumeric num text).1 ++ (parseNumeric num text).2 = text := by
  induction text generalizing num with
  | nil => rfl
  | cons byte rest ih =>
    rw [parseNumeric]
    split
    · simp only [List.cons_append, ih]
    · rfl

theorem matchEscape_cases (text : List UInt8) :
    matchEscape text = .leftover ∨
      (∃ seen rest, matchEscape text = .sequence seen rest ∧ text = seen ++ rest ∧ seen ≠ []) ∨
      ∃ seen rest, matchEscape text = .other seen rest ∧ text = seen ++ rest ∧ seen ≠ [] := by
  have htext := parseNumeric_eq 0 text
  rw [matchEscape]
  obtain ⟨number, rest, hnumber⟩ : ∃ number rest, parseNumeric 0 text = (number, rest) :=
    ⟨_, _, rfl⟩
  rw [hnumber] at htext ⊢
  cases rest with
  | nil => exact .inl rfl
  | cons byte rest =>
    have hsecond := parseNumeric_eq 0 rest
    simp only at htext ⊢
    split
    · refine .inr
        (.inl ⟨_, _, rfl, ?_, List.append_ne_nil_of_right_ne_nil _ (List.cons_ne_nil _ _)⟩)
      rw [List.append_assoc]
      exact htext.symm
    · split
      · obtain ⟨second, last, hlast⟩ : ∃ second last, parseNumeric 0 rest = (second, last) :=
          ⟨_, _, rfl⟩
        rw [hlast] at hsecond ⊢
        cases last with
        | nil => exact .inl rfl
        | cons last after =>
          have hall : text = number ++ byte :: (second ++ [last]) ++ after := by
            rw [← htext, ← hsecond]
            simp only [List.append_assoc, List.cons_append, List.nil_append]
          have hsome : number ++ byte :: (second ++ [last]) ≠ [] :=
            List.append_ne_nil_of_right_ne_nil _ (List.cons_ne_nil _ _)
          simp only
          split
          · exact .inr (.inl ⟨_, _, rfl, hall, hsome⟩)
          · exact .inr (.inr ⟨_, _, rfl, hall, hsome⟩)
      · refine .inr (.inr ⟨_, _, rfl, ?_,
          List.append_ne_nil_of_right_ne_nil _ (List.cons_ne_nil _ _)⟩)
        rw [List.append_assoc]
        exact htext.symm

theorem matchEscape_sequence (h : matchEscape text = .sequence seen rest) :
    text = seen ++ rest ∧ seen ≠ [] := by
  rcases matchEscape_cases text with hcase | ⟨_, _, hcase, htext⟩ | ⟨_, _, hcase, -⟩
  · rw [h] at hcase
    cases hcase
  · rw [h] at hcase
    cases hcase
    exact htext
  · rw [h] at hcase
    cases hcase

theorem matchEscape_other (h : matchEscape text = .other seen rest) :
    text = seen ++ rest ∧ seen ≠ [] := by
  rcases matchEscape_cases text with hcase | ⟨_, _, hcase, -⟩ | ⟨_, _, hcase, htext⟩
  · rw [h] at hcase
    cases hcase
  · rw [h] at hcase
    cases hcase
  · rw [h] at hcase
    cases hcase
    exact htext

/-- The loop of `remove_ANSI_escape_code` from some place of the text on: the pure text and the
truncated end. -/
def scan (text : List UInt8) : List UInt8 × List UInt8 :=
  match text with
  | [] => ([], [])
  | [byte] => if byte = escape then ([], [byte]) else ([byte], [])
  | first :: second :: rest =>
    if first = escape && second = bracket then
      match _h : matchEscape rest with
      | .leftover => ([], first :: second :: rest)
      | .sequence _ after => scan after
      | .other seen after =>
        let (pureText, truncateText) := scan after
        (first :: second :: (seen ++ pureText), truncateText)
    else
      let (pureText, truncateText) := scan (second :: rest)
      (first :: pureText, truncateText)
termination_by text.length
decreasing_by
  · have htext := (matchEscape_sequence _h).1
    rw [htext]
    simp only [List.length_cons, List.length_append]
    omega
  · have htext := (matchEscape_other _h).1
    rw [htext]
    simp only [List.length_cons, List.length_append]
    omega
  · simp only [List.length_cons]
    omega

/-- `(int) text.size()`. -/
def textLength (text : List UInt8) : Int := Int.bmod text.length (2 ^ 32)

/-- No byte from `text_length` on is looked at. -/
def removeANSIEscapeCode (text : List UInt8) : List UInt8 × List UInt8 :=
  scan (text.take (textLength text).toNat)

/-- `prog_info_t::remove_ANSI_escape_code` on one read after the other: what is stored, and the
residual log. -/
def storedLog : List (List UInt8) → List UInt8 → List UInt8 × List UInt8
  | [], residualLog => ([], residualLog)
  | text :: rest, residualLog =>
    let pair := removeANSIEscapeCode (residualLog ++ text)
    let later := storedLog rest pair.2
    (pair.1 ++ later.1, later.2)

theorem parseNumeric_stops (h : parseNumeric num text = (digits, byte :: rest))
    (more : List UInt8) : parseNumeric num (digits ++ byte :: more) = (digits, byte :: more) := by
  induction text generalizing num digits with
  | nil => cases h
  | cons first text ih =>
    rw [parseNumeric] at h
    split at h
    · rename_i hdigit
      obtain ⟨seen, left, hseen⟩ : ∃ seen left,
          parseNumeric (num * 10 + (first - 0x30).toNat) text = (seen, left) := ⟨_, _, rfl⟩
      rw [hseen] at h
      cases h
      rw [List.cons_append, parseNumeric, if_pos hdigit, ih hseen]
    · rename_i hdigit
      cases h
      rw [List.nil_append, parseNumeric, if_neg hdigit]

def Match.followedBy (more : List UInt8) : Match → Match
  | leftover => leftover
  | sequence seen _ => sequence seen more
  | other seen _ => other seen more

def Match.seen : Match → List UInt8
  | leftover => []
  | sequence seen _ => seen
  | other seen _ => seen

theorem matchEscape_followedBy (h : matchEscape text ≠ .leftover) (more : List UInt8) :
    matchEscape ((matchEscape text).seen ++ more) = (matchEscape text).followedBy more := by
  obtain ⟨number, left, hnumber⟩ : ∃ number left, parseNumeric 0 text = (number, left) :=
    ⟨_, _, rfl⟩
  rw [matchEscape, hnumber] at h
  rw [matchEscape.eq_1 text, hnumber]
  cases left with
  | nil => exact absurd rfl h
  | cons byte left =>
    simp only at h ⊢
    split
    · rename_i hletter
      have hmore := parseNumeric_stops hnumber more
      simp only [Match.seen, Match.followedBy, List.append_assoc, List.singleton_append]
      rw [matchEscape, hmore]
      exact if_pos hletter
    · rename_i hletter
      rw [if_neg hletter] at h
      split
      · rename_i hsemicolon
        rw [if_pos hsemicolon] at h
        obtain ⟨second, last, hsecond⟩ : ∃ second last, parseNumeric 0 left = (second, last) :=
          ⟨_, _, rfl⟩
        rw [hsecond] at h ⊢
        cases last with
        | nil => exact absurd rfl h
        | cons last after =>
          have hmore := parseNumeric_stops hnumber (second ++ last :: more)
          have hlast := parseNumeric_stops hsecond more
          have hall : matchEscape (number ++ byte :: (second ++ last :: more)) =
              if last = letterM then .sequence (number ++ byte :: (second ++ [last])) more
              else .other (number ++ byte :: (second ++ [last])) more := by
            rw [matchEscape, hmore]
            simp only
            rw [if_neg hletter, if_pos hsemicolon, hlast]
          simp only
          split
          · rename_i hend
            simp only [Match.seen, Match.followedBy, List.append_assoc, List.cons_append,
              List.nil_append]
            exact hall.trans (if_pos hend)
          · rename_i hend
            simp only [Match.seen, Match.followedBy, List.append_assoc, List.cons_append,
              List.nil_append]
            exact hall.trans (if_neg hend)
      · rename_i hsemicolon
        have hmore := parseNumeric_stops hnumber more
        simp only [Match.seen, Match.followedBy, List.append_assoc, List.singleton_append]
        rw [matchEscape, hmore]
        exact (if_neg hletter).trans (if_neg hsemicolon)

theorem matchEscape_sequence_append (h : matchEscape text = .sequence seen rest)
    (more : List UInt8) : matchEscape (seen ++ more) = .sequence seen more := by
  have hmore := matchEscape_followedBy (by rw [h]; exact Match.noConfusion) more
  rw [h] at hmore
  exact hmore

theorem matchEscape_other_append (h : matchEscape text = .other seen rest) (more : List UInt8) :
    matchEscape (seen ++ more) = .other seen more := by
  have hmore := matchEscape_followedBy (by rw [h]; exact Match.noConfusion) more
  rw [h] at hmore
  exact hmore

@[simp] theorem scan_nil : scan [] = ([], []) := by
  rw [scan]

theorem scan_escape : scan [escape] = ([], [escape]) := by
  rw [scan, if_pos rfl]

theorem scan_plain (h : ¬ (first = escape ∧ rest.head? = some bracket))
    (hlast : ¬ (first = escape ∧ rest = [])) :
    scan (first :: rest) = (first :: (scan rest).1, (scan rest).2) := by
  cases rest with
  | nil =>
    have hfirst : first ≠ escape := fun heq => hlast ⟨heq, rfl⟩
    have hone : scan [first] = ([first], []) := by rw [scan, if_neg hfirst]
    rw [hone, scan_nil]
  | cons second rest =>
    have hstart : ¬ (decide (first = escape) && decide (second = bracket)) = true := by
      rw [Bool.and_eq_true, decide_eq_true_eq, decide_eq_true_eq]
      exact fun hboth => h ⟨hboth.1, congrArg some hboth.2⟩
    rw [scan, if_neg hstart]

theorem scan_of_ne (h : first ≠ escape) (rest : List UInt8) :
    scan (first :: rest) = (first :: (scan rest).1, (scan rest).2) :=
  scan_plain (fun hboth => h hboth.1) fun hboth => h hboth.1

theorem scan_leftover (h : matchEscape rest = .leftover) :
    scan (escape :: bracket :: rest) = ([], escape :: bracket :: rest) := by
  rw [scan, if_pos (by decide)]
  split
  · rfl
  · rename_i hmatch
    rw [h] at hmatch
    cases hmatch
  · rename_i hmatch
    rw [h] at hmatch
    cases hmatch

theorem scan_sequence (h : matchEscape rest = .sequence seen after) :
    scan (escape :: bracket :: rest) = scan after := by
  rw [scan, if_pos (by decide)]
  split
  · rename_i hmatch
    rw [h] at hmatch
    cases hmatch
  · rename_i hmatch
    rw [h] at hmatch
    cases hmatch
    rfl
  · rename_i hmatch
    rw [h] at hmatch
    cases hmatch

theorem scan_other (h : matchEscape rest = .other seen after) :
    scan (escape :: bracket :: rest) =
      (escape :: bracket :: (seen ++ (scan after).1), (scan after).2) := by
  rw [scan, if_pos (by decide)]
  split
  · rename_i hmatch
    rw [h] at hmatch
    cases hmatch
  · rename_i hmatch
    rw [h] at hmatch
    cases hmatch
  · rename_i hmatch
    rw [h] at hmatch
    cases hmatch
    rfl

/-- The ways in which a text may begin, each with what remains to be scanned. -/
inductive Start : List UInt8 → Prop where
  | empty : Start []
  | escape : Start [escape]
  | plain (hbracket : ¬ (first = Ansi.escape ∧ rest.head? = some bracket))
      (hlast : ¬ (first = Ansi.escape ∧ rest = [])) : Start (first :: rest)
  | leftover (h : matchEscape rest = .leftover) : Start (Ansi.escape :: bracket :: rest)
  | sequence (h : matchEscape rest = .sequence seen after) :
      Start (Ansi.escape :: bracket :: rest)
  | other (h : matchEscape rest = .other seen after) : Start (Ansi.escape :: bracket :: rest)

theorem start (text : List UInt8) : Start text := by
  cases text with
  | nil => exact .empty
  | cons first rest =>
    by_cases hlast : first = Ansi.escape ∧ rest = []
    · obtain ⟨rfl, rfl⟩ := hlast
      exact .escape
    by_cases hbracket : first = Ansi.escape ∧ rest.head? = some bracket
    · obtain ⟨rfl, hhead⟩ := hbracket
      obtain ⟨rest, rfl⟩ := List.head?_eq_some_iff.1 hhead
      rcases matchEscape_cases rest with h | ⟨_, _, h, -⟩ | ⟨_, _, h, -⟩
      · exact .leftover h
      · exact .sequence h
      · exact .other h
    · exact .plain hbracket hlast

theorem scan_append (a b : List UInt8) : scan (a ++ b) =
    ((scan a).1 ++ (scan ((scan a).2 ++ b)).1, (scan ((scan a).2 ++ b)).2) := by
  obtain ⟨n, hn⟩ : ∃ n, n = a.length := ⟨_, rfl⟩
  induction n using Nat.strongRecOn generalizing a with
  | ind n ih =>
    cases start a with
    | empty =>
      rw [scan_nil]
      rfl
    | escape =>
      rw [scan_escape]
      rfl
    | @plain first rest hbracket hlast =>
      have hrest := ih rest.length (by rw [hn]; exact Nat.lt_succ_self _) rest rfl
      have hmore : scan (first :: (rest ++ b)) =
          (first :: (scan (rest ++ b)).1, (scan (rest ++ b)).2) := by
        cases rest with
        | nil =>
          have hfirst : first ≠ escape := fun heq => hlast ⟨heq, rfl⟩
          exact scan_of_ne hfirst _
        | cons second rest =>
          apply scan_plain
          · rw [List.cons_append, List.head?_cons]
            rw [List.head?_cons] at hbracket
            exact hbracket
          · exact fun hboth => absurd hboth.2 (List.cons_ne_nil _ _)
      rw [List.cons_append, hmore, scan_plain hbracket hlast, hrest]
      rfl
    | leftover h =>
      rw [scan_leftover h]
      rfl
    | @sequence rest seen after h =>
      have hshorter : after.length < n := by
        rw [hn, (matchEscape_sequence h).1]
        simp only [List.length_cons, List.length_append]
        omega
      have hmore := matchEscape_sequence_append h (after ++ b)
      rw [← List.append_assoc, ← (matchEscape_sequence h).1] at hmore
      rw [scan_sequence h]
      exact (scan_sequence hmore).trans (ih _ hshorter after rfl)
    | @other rest seen after h =>
      have hshorter : after.length < n := by
        rw [hn, (matchEscape_other h).1]
        simp only [List.length_cons, List.length_append]
        omega
      have hmore := matchEscape_other_append h (after ++ b)
      rw [← List.append_assoc, ← (matchEscape_other h).1] at hmore
      have hall := scan_other hmore
      rw [ih _ hshorter after rfl] at hall
      rw [scan_other h, List.cons_append, List.cons_append, hall]
      simp only [List.append_assoc, List.cons_append]

theorem scan_truncated (text : List UInt8) : scan (scan text).2 = ([], (scan text).2) := by
  have happend := scan_append text []
  rw [List.append_nil, List.append_nil] at happend
  obtain ⟨hpure, hend⟩ := Prod.mk.inj happend
  have hnil : (scan (scan text).2).1 = [] := List.self_eq_append_right.1 hpure
  exact Prod.ext hnil hend.symm

theorem scan_length (text : List UInt8) :
    (scan text).1.length + (scan text).2.length ≤ text.length := by
  obtain ⟨n, hn⟩ : ∃ n, n = text.length := ⟨_, rfl⟩
  induction n using Nat.strongRecOn generalizing text with
  | ind n ih =>
    cases start text with
    | empty =>
      rw [scan_nil]
      exact Nat.le_refl _
    | escape =>
      rw [scan_escape]
      exact Nat.le_refl _
    | @plain first rest hbracket hlast =>
      have hrest := ih rest.length (by rw [hn]; exact Nat.lt_succ_self _) rest rfl
      rw [scan_plain hbracket hlast]
      simp only [List.length_cons]
      omega
    | leftover h =>
      rw [scan_leftover h]
      simp only [List.length_nil, Nat.zero_add]
      exact Nat.le_refl _
    | @sequence rest seen after h =>
      have htext := congrArg List.length (matchEscape_sequence h).1
      rw [List.length_append] at htext
      simp only [List.length_cons] at hn ⊢
      have hrest := ih _ (by omega) after rfl
      rw [scan_sequence h]
      omega
    | @other rest seen after h =>
      have htext := congrArg List.length (matchEscape_other h).1
      rw [List.length_append] at htext
      simp only [List.length_cons] at hn ⊢
      have hrest := ih _ (by omega) after rfl
      rw [scan_other h]
      simp only [List.length_cons, List.length_append]
      omega

/-- Filtering `a`, and then `b` behind what was left of `a`, gives what filtering both at once
gives. -/
def StreamSafe (a b : List UInt8) : Prop :=
  removeANSIEscapeCode (a ++ b) =
    ((removeANSIEscapeCode a).1 ++
        (removeANSIEscapeCode ((removeANSIEscapeCode a).2 ++ b)).1,
      (removeANSIEscapeCode ((removeANSIEscapeCode a).2 ++ b)).2)

theorem textLength_of_lt (h : text.length < 2 ^ 31) : textLength text = text.length := by
  apply Int.bmod_eq_of_le
  · omega
  · omega

theorem toNat_bmod_le (count : Nat) : (Int.bmod count (2 ^ 32)).toNat ≤ count := by
  rw [Int.bmod_def]
  split
  · omega
  · omega

theorem bmod_half : (Int.bmod (2 ^ 31 : Nat) (2 ^ 32)).toNat = 0 := by
  rw [Int.bmod_def]
  split
  · omega
  · omega

theorem removeANSIEscapeCode_of_lt (h : text.length < 2 ^ 31) :
    removeANSIEscapeCode text = scan text := by
  rw [removeANSIEscapeCode, textLength_of_lt h, Int.toNat_natCast, List.take_length]

theorem streamSafe_of_lt (h : a.length + b.length < 2 ^ 31) : StreamSafe a b := by
  have hlength := scan_length a
  have hfirst : removeANSIEscapeCode a = scan a := removeANSIEscapeCode_of_lt (by omega)
  rw [StreamSafe, hfirst,
    removeANSIEscapeCode_of_lt (by rw [List.length_append]; exact h),
    removeANSIEscapeCode_of_lt (by rw [List.length_append]; omega)]
  exact scan_append a b

theorem storedLog_of_lt (h : residualLog.length + texts.flatten.length < 2 ^ 31)
    (hresidual : scan residualLog = ([], residualLog)) :
    storedLog texts residualLog = scan (residualLog ++ texts.flatten) := by
  induction texts generalizing residualLog with
  | nil =>
    rw [storedLog, List.flatten_nil, List.append_nil, hresidual]
  | cons text rest ih =>
    rw [List.flatten_cons, List.length_append] at h
    have hone : removeANSIEscapeCode (residualLog ++ text) = scan (residualLog ++ text) :=
      removeANSIEscapeCode_of_lt (by rw [List.length_append]; omega)
    have hlength := scan_length (residualLog ++ text)
    rw [List.length_append] at hlength
    have hrest := ih (by omega) (scan_truncated (residualLog ++ text))
    rw [List.flatten_cons, ← List.append_assoc, scan_append (residualLog ++ text), ← hrest,
      storedLog, hone]

theorem scan_replicate (h : byte ≠ escape) (count : Nat) :
    scan (List.replicate count byte) = (List.replicate count byte, []) := by
  induction count with
  | zero => exact scan_nil
  | succ count ih => rw [List.replicate_succ, scan_of_ne h, ih]

theorem removeANSIEscapeCode_replicate (h : byte ≠ escape) (count : Nat) :
    removeANSIEscapeCode (List.replicate count byte) =
      (List.replicate (Int.bmod count (2 ^ 32)).toNat byte, []) := by
  have hlength : textLength (List.replicate count byte) = Int.bmod count (2 ^ 32) :=
    congrArg (fun n : Nat => Int.bmod n (2 ^ 32)) List.length_replicate
  have htake : (List.replicate count byte).take (Int.bmod count (2 ^ 32)).toNat =
      List.replicate (Int.bmod count (2 ^ 32)).toNat byte := by
    rw [List.take_replicate, Nat.min_eq_left (toNat_bmod_le count)]
  calc removeANSIEscapeCode (List.replicate count byte)
      = scan ((List.replicate count byte).take (Int.bmod count (2 ^ 32)).toNat) := by
        rw [← hlength, removeANSIEscapeCode]
    _ = scan (List.replicate (Int.bmod count (2 ^ 32)).toNat byte) := congrArg scan htake
    _ = (List.replicate (Int.bmod count (2 ^ 32)).toNat byte, []) := scan_replicate h _

theorem not_streamSafe_one (h : byte ≠ escape)
    (hcount : (Int.bmod (count + 1 : Nat) (2 ^ 32)).toNat = 0) :
    ¬ StreamSafe [byte] (List.replicate count byte) := by
  intro hsafe
  have hall := removeANSIEscapeCode_replicate h (count + 1)
  rw [hcount, List.replicate_succ] at hall
  have hone : removeANSIEscapeCode [byte] = ([byte], []) :=
    (removeANSIEscapeCode_of_lt (by rw [List.length_singleton]; omega)).trans (scan_replicate h 1)
  rw [StreamSafe, List.singleton_append, hall, hone] at hsafe
  have hkept := congrArg List.length (Prod.mk.inj hsafe).1
  rw [List.length_append, List.length_singleton, List.replicate_zero, List.length_nil] at hkept
  omega

/-- When something is kept of a text, but not of its two parts, they do not give the text. -/
theorem not_streamSafe_parts (h : byte ≠ escape)
    (hall : (Int.bmod (m + n : Nat) (2 ^ 32)).toNat ≠ 0) (hm : (Int.bmod m (2 ^ 32)).toNat = 0)
    (hn : (Int.bmod n (2 ^ 32)).toNat = 0) :
    ¬ StreamSafe (List.replicate m byte) (List.replicate n byte) := by
  intro hsafe
  rw [StreamSafe, List.replicate_append_replicate, removeANSIEscapeCode_replicate h,
    removeANSIEscapeCode_replicate h, hm, List.nil_append, removeANSIEscapeCode_replicate h,
    hn] at hsafe
  have hkept := congrArg List.length (Prod.mk.inj hsafe).1
  rw [List.length_replicate] at hkept
  exact hall hkept

theorem exists_not_streamSafe (h : 2 ^ 31 ≤ length) :
    ∃ a b, a.length + b.length = length ∧ ¬ StreamSafe a b := by
  have hbyte : (0x61 : UInt8) ≠ escape := by decide
  by_cases hall : (Int.bmod length (2 ^ 32)).toNat = 0
  · obtain ⟨count, rfl⟩ : ∃ count, length = count + 1 := ⟨length - 1, by omega⟩
    refine ⟨[0x61], List.replicate count 0x61, ?_, not_streamSafe_one hbyte hall⟩
    rw [List.length_replicate, List.length_singleton, Nat.add_comm]
  · obtain ⟨m, rfl⟩ : ∃ m, length = m + 2 ^ 31 := ⟨length - 2 ^ 31, by omega⟩
    have hm : (Int.bmod m (2 ^ 32)).toNat = 0 := by
      rw [Int.bmod_def] at hall ⊢
      split at hall
      · split
        · omega
        · omega
      · omega
    refine ⟨List.replicate m 0x61, List.replicate (2 ^ 31) 0x61, ?_,
      not_streamSafe_parts hbyte hall hm bmod_half⟩
    rw [List.length_replicate, List.length_replicate]

end Ansi

end PmTiny
