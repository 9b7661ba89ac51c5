import Caspian.Verified.Text

/-!
# The tokens of a line

The rule files of packet filters share one lexical shape: words between
blanks, names in double quotes, a few punctuation marks that stand for
themselves wherever they are, and a comment from `#` to the end of the line.
`tokens` is that scanner, one character at a time, so that a line put together
from fixed text and a value is scanned through the fixed text by evaluation
and over the value by `scan_word` or `scan_quoted`.

A parser over the tokens is written with `expect`, which strips keywords.
-/

namespace Caspian.Verified.Lexer

inductive Token where
  | word (text : String)
  | quoted (text : String)
  | mark (c : Char)
  deriving DecidableEq, Repr

def isBlank (c : Char) : Bool := c = ' ' || c = '\t'

/-- The marks that are tokens wherever they stand. -/
def isMark (c : Char) : Bool := c ∈ ['\x7b', '\x7d', '(', ')', ',', ';']

/-- A character any word may start with and go on with. -/
def plain (c : Char) : Bool := !isBlank c && !isMark c && c ≠ '"' && c ≠ '#' && c ≠ '\n'

/-- The characters that are not plain. -/
def special : List Char := [' ', '\t', '\x7b', '\x7d', '(', ')', ',', ';', '"', '#', '\n']

theorem lf_notMem {w : String} (h : ∀ c ∈ w.toList, plain c = true) : '\n' ∉ w.toList :=
  fun hmem => absurd (h _ hmem) (by decide)

/-- A class of characters that has none of the special ones in it is plain. -/
theorem plain_of_spared {good : Char → Bool} (hspared : ∀ c ∈ special, good c = false) {c : Char}
    (h : good c = true) : plain c = true := by
  by_contra hnot
  have hmem : c ∈ special := by
    simp only [plain, isBlank, isMark] at hnot
    simp only [special, List.mem_cons, List.not_mem_nil, or_false] at hnot ⊢
    grind
  rw [hspared c hmem] at h
  cases h

/-- Where the scanner is: between tokens, or inside one with the characters it
has of it, the last one first. -/
inductive Mode where
  | between
  | word (seen : List Char)
  | quoted (seen : List Char)

/-- The text of characters collected last one first. -/
def collected (seen : List Char) : String := String.ofList seen.reverse

/-- The tokens of the rest of a line; a quote that is not closed is an error. -/
def scan : Mode → List Char → Option (List Token)
  | .between, [] => some []
  | .word seen, [] => some [.word (collected seen)]
  | .quoted _, [] => none
  | .between, c :: cs =>
    if isBlank c then scan .between cs
    else if c = '#' then some []
    else if c = '"' then scan (.quoted []) cs
    else if isMark c then (scan .between cs).map (.mark c :: ·)
    else scan (.word [c]) cs
  | .word seen, c :: cs =>
    if isBlank c then (scan .between cs).map (.word (collected seen) :: ·)
    else if c = '"' then (scan (.quoted []) cs).map (.word (collected seen) :: ·)
    else if isMark c then (scan .between cs).map (.word (collected seen) :: .mark c :: ·)
    else scan (.word (c :: seen)) cs
  | .quoted seen, c :: cs =>
    if c = '"' then (scan .between cs).map (.quoted (collected seen) :: ·)
    else scan (.quoted (c :: seen)) cs

def tokens (line : String) : Option (List Token) := scan .between line.toList

/-! ## Scanning over a value -/

theorem scan_inWord {w : List Char} (hw : ∀ c ∈ w, plain c = true) (seen rest : List Char) :
    scan (.word seen) (w ++ rest) = scan (.word (w.reverse ++ seen)) rest := by
  induction w generalizing seen with
  | nil => rfl
  | cons c w ih =>
    have hc := hw c List.mem_cons_self
    simp only [plain, Bool.and_eq_true, Bool.not_eq_true', decide_eq_true_eq] at hc
    rw [List.cons_append, scan, if_neg (by simp [hc.1.1.1.1]), if_neg hc.1.1.2,
      if_neg (by simp [hc.1.1.1.2]),
      ih (fun d hd => hw d (List.mem_cons_of_mem _ hd)), List.reverse_cons, List.append_assoc]
    rfl

/-- A word in the text, up to where it ends. -/
theorem scan_word {w : String} (hne : w ≠ "") (hw : ∀ c ∈ w.toList, plain c = true)
    (rest : List Char) :
    scan .between (w.toList ++ rest) = scan (.word w.toList.reverse) rest := by
  obtain ⟨c, cs, hcs⟩ := List.exists_cons_of_ne_nil (by simpa using hne : w.toList ≠ [])
  have hc := hw c (by simp [hcs])
  simp only [plain, Bool.and_eq_true, Bool.not_eq_true', decide_eq_true_eq] at hc
  rw [hcs, List.cons_append, scan, if_neg (by simp [hc.1.1.1.1]), if_neg hc.1.2,
    if_neg hc.1.1.2, if_neg (by simp [hc.1.1.1.2]),
    scan_inWord (fun d hd => hw d (by simp [hcs, hd])), List.reverse_cons]

/-- A word at the end of the line. -/
theorem scan_lastWord {w : String} (hne : w ≠ "") (hw : ∀ c ∈ w.toList, plain c = true) :
    scan .between w.toList = some [.word w] := by
  have h := scan_word hne hw []
  rw [List.append_nil] at h
  rw [h, scan, collected, List.reverse_reverse, String.ofList_toList]

/-! ## Keywords -/

/-- The tokens after the given keywords. -/
def expect : List String → List Token → Option (List Token)
  | [], ts => some ts
  | k :: ks, .word w :: ts => if w = k then expect ks ts else none
  | _ :: _, _ => none

/-! ## Texts -/

section Reading

variable {α : Type} (read : String → Option (Option α))

/-- What some lines come to, each to one thing or to nothing; a line that cannot
be read spoils them all. -/
def readAll : List String → Option (List α)
  | [] => some []
  | l :: ls => (read l).bind fun x => (readAll ls).map fun xs => x.toList ++ xs

def readLines (text : String) : Option (List α) := readAll read (Text.lines text)

variable {read} {ls ls' : List String} {xs ys : List α}

theorem readAll_ok :
    readAll read ls = some xs ↔
      none ∉ ls.map read ∧ ls.filterMap (fun l => (read l).join) = xs := by
  induction ls generalizing xs with
  | nil => simp [readAll]
  | cons l ls ih =>
    cases hl : read l with
    | none => simp [readAll, hl]
    | some x =>
      have hjoin : (l :: ls).filterMap (fun l => (read l).join) =
          x.toList ++ ls.filterMap fun l => (read l).join := by
        cases x with
        | none | some a => simp [hl]
      have hnone : none ∉ (l :: ls).map read ↔ none ∉ ls.map read := by
        rw [List.map_cons, List.mem_cons, hl]
        simp
      rw [readAll, hl, Option.bind_some, hjoin, hnone, Option.map_eq_some_iff]
      constructor
      · rintro ⟨ys, hys, rfl⟩
        obtain ⟨hread, rfl⟩ := ih.mp hys
        exact ⟨hread, rfl⟩
      · rintro ⟨hread, rfl⟩
        exact ⟨_, ih.mpr ⟨hread, rfl⟩, rfl⟩

/-- A text written line by line is read line by line. -/
theorem readLines_unlines (hempty : read "" = some none) (h : ∀ l ∈ ls, '\n' ∉ l.toList) :
    readLines read (Text.unlines ls) = readAll read ls := by
  rw [readLines, Text.lines_unlines h]
  refine Option.ext fun xs => ?_
  rw [readAll_ok, readAll_ok]
  simp [hempty]

end Reading

end Caspian.Verified.Lexer
