import Mathlib

/-!
# Text functions that compute

The string operations a program of this kind leans on — substring search,
case folding, trimming, cutting at a separator — written over the list of
characters of a string, so that they run inside the kernel of the proof
checker and a concrete command line can be evaluated by `decide`.
-/

namespace Caspian.Verified.Text

-- A statement about all characters is decidable too, by going through every one
-- of them.  These two make sure that only those of the list are looked at.
instance (priority := high) decidableForallMem {α : Type} {p : α → Prop} [DecidablePred p]
    (l : List α) : Decidable (∀ x ∈ l, p x) := List.decidableBAll p l

instance (priority := high) decidableForallSome {α : Type} {p : α → Prop} [DecidablePred p]
    (o : Option α) : Decidable (∀ x ∈ o, p x) := Option.decidableForallMem o

instance lawfulChars : LawfulBEq (List Char) := inferInstance

/-- Lower case of one character.  Besides the ASCII letters the table holds
the two characters outside ASCII whose lower case is an ASCII letter, so that
a search for an ASCII needle in a lowered text answers as it does for the
full Unicode table. -/
def lowerRune (c : Char) : Char :=
  if c = '\u0130' then 'i'
  else if c = '\u212a' then 'k'
  else c.toLower

/-- Lower case of a text. -/
def toLower (s : String) : String :=
  String.ofList (s.toList.map lowerRune)

/-- Representative of a character under simple case folding, as far as an
ASCII text can tell. -/
def foldRune (c : Char) : Char :=
  if c = '\u017f' then 's'
  else if c = '\u212a' then 'k'
  else c.toLower

/-- `strings.EqualFold`. -/
def equalFold (s t : String) : Bool :=
  s.toList.map foldRune = t.toList.map foldRune

/-- `contains hay needle`: the needle stands somewhere in the text. -/
def contains (hay needle : String) : Bool :=
  decide (needle.toList <:+: hay.toList)

/-- The text starts with the given one. -/
def hasPrefix (s p : String) : Bool :=
  p.toList.isPrefixOf s.toList

/-- The characters `unicode.IsSpace` accepts. -/
def isSpace (c : Char) : Bool :=
  c ∈ ['\t', '\n', '\u000b', '\u000c', '\r', ' ', '\u0085', '\u00a0', '\u1680',
    '\u2000', '\u2001', '\u2002', '\u2003', '\u2004', '\u2005', '\u2006',
    '\u2007', '\u2008', '\u2009', '\u200a', '\u2028', '\u2029', '\u202f',
    '\u205f', '\u3000']

/-- Drop the white space at both ends of a list of characters. -/
def trimChars (cs : List Char) : List Char :=
  ((cs.dropWhile isSpace).reverse.dropWhile isSpace).reverse

/-- Drop the white space at both ends. -/
def trimSpace (s : String) : String :=
  String.ofList (trimChars s.toList)

/-- Split a list of characters at the first occurrence of `sep`. -/
def cutChars (sep : Char) : List Char → Option (List Char × List Char)
  | [] => none
  | c :: cs =>
    if c = sep then some ([], cs)
    else (cutChars sep cs).map fun p => (c :: p.1, p.2)

/-- Split a text at the first occurrence of `sep`. -/
def cut (sep : Char) (s : String) : Option (String × String) :=
  (cutChars sep s.toList).map fun p => (String.ofList p.1, String.ofList p.2)

/-- Split a list of characters at every `sep`. -/
def splitChars (sep : Char) : List Char → List (List Char)
  | [] => [[]]
  | c :: cs =>
    if c = sep then [] :: splitChars sep cs
    else
      match splitChars sep cs with
      | [] => [[c]]
      | first :: rest => (c :: first) :: rest

/-- The lines of a text, as a split at every line feed gives them. -/
def lines (s : String) : List String :=
  (splitChars '\n' s.toList).map String.ofList

/-- `strings.Fields`: the runs of characters between white space. -/
def fields (cs : List Char) : List (List Char) :=
  (cs.splitOnP isSpace).filter fun f => !f.isEmpty

/-- `strings.TrimPrefix`. -/
def trimPrefix (cs p : List Char) : List Char :=
  if p.isPrefixOf cs then cs.drop p.length else cs

/-- Lines with a line feed after each one. -/
def unlines (ls : List String) : String :=
  String.join (ls.map fun l => l ++ "\n")

variable {c : Char}

/-- Texts that agree up to a place in one line and differ in the character
there. -/
theorem unlines_ne {a b b' : List String} {pre x y : String} {d : Char} {xs ys : List Char}
    (hx : x.toList = c :: xs) (hy : y.toList = d :: ys) (hne : c ≠ d) :
    unlines (a ++ (pre ++ x) :: b) ≠ unlines (a ++ (pre ++ y) :: b') := by
  intro heq
  have htext := congrArg String.toList heq
  simp only [unlines, List.map_append, List.map_cons, String.toList_join, List.flatMap_append,
    List.flatMap_cons, String.toList_append, List.append_assoc, List.append_cancel_left_eq, hx, hy,
    List.cons_append, List.cons.injEq] at htext
  exact hne htext.1

/-! ## Quoting -/

/-- Two hexadecimal digits. -/
def hexPair (n : Nat) : List Char :=
  [Nat.digitChar (n / 16), Nat.digitChar (n % 16)]

/-- One character inside a `%q` text.  Characters above ASCII are taken to be
printable and stand for themselves. -/
def quoteRune (c : Char) : List Char :=
  if c = '"' then ['\\', '"']
  else if c = '\\' then ['\\', '\\']
  else if c = '\n' then ['\\', 'n']
  else if c = '\t' then ['\\', 't']
  else if c = '\r' then ['\\', 'r']
  else if c = '\u0007' then ['\\', 'a']
  else if c = '\u0008' then ['\\', 'b']
  else if c = '\u000b' then ['\\', 'v']
  else if c = '\u000c' then ['\\', 'f']
  else if c.toNat < 0x20 ∨ c.toNat = 0x7f then '\\' :: 'x' :: hexPair c.toNat
  else [c]

/-- `fmt`'s `%q`. -/
def quote (s : String) : String :=
  String.ofList ('"' :: s.toList.flatMap quoteRune ++ ['"'])

/-- Cutting a text whose first part holds no separator finds that part. -/
theorem cutChars_append (sep : Char) (k v : List Char) (hk : sep ∉ k) :
    cutChars sep (k ++ sep :: v) = some (k, v) := by
  induction k with
  | nil => simp [cutChars]
  | cons c cs ih =>
    have hc : c ≠ sep := fun h => hk (by simp [h])
    have hcs : sep ∉ cs := fun h => hk (by simp [h])
    simp [cutChars, hc, ih hcs]

variable {sep : Char} {cs : List Char}

theorem cutChars_of_notMem (h : sep ∉ cs) : cutChars sep cs = none := by
  induction cs with
  | nil => rfl
  | cons c cs ih =>
    have hc : c ≠ sep := fun hc => h (by simp [hc])
    have hcs : sep ∉ cs := fun hcs => h (by simp [hcs])
    simp [cutChars, hc, ih hcs]

/-- A text without the separator is one piece. -/
theorem splitChars_of_notMem (h : sep ∉ cs) : splitChars sep cs = [cs] := by
  induction cs with
  | nil => rfl
  | cons c cs ih =>
    have hc : c ≠ sep := fun hc => h (by simp [hc])
    have hcs : sep ∉ cs := fun hcs => h (by simp [hcs])
    simp [splitChars, hc, ih hcs]

/-- The first piece is what stands before the first separator. -/
theorem splitChars_first (sep : Char) (cs : List Char) :
    ∃ more, splitChars sep cs = cs.takeWhile (· ≠ sep) :: more := by
  induction cs with
  | nil => exact ⟨[], rfl⟩
  | cons c cs ih =>
    obtain ⟨more, hmore⟩ := ih
    rw [splitChars, hmore]
    split
    next hc => exact ⟨cs.takeWhile (· ≠ sep) :: more, by simp [hc]⟩
    next hc => exact ⟨more, by simp [hc]⟩

/-- The pieces of two texts with a separator between them. -/
theorem splitChars_between (sep : Char) (cs rest : List Char) :
    splitChars sep (cs ++ sep :: rest) = splitChars sep cs ++ splitChars sep rest := by
  induction cs with
  | nil => simp [splitChars]
  | cons c cs ih =>
    obtain ⟨more, hmore⟩ := splitChars_first sep cs
    rw [List.cons_append, splitChars, splitChars, ih, hmore]
    split <;> rfl

/-- Splitting takes the part before the first separator off. -/
theorem splitChars_append (h : sep ∉ cs) (rest : List Char) :
    splitChars sep (cs ++ sep :: rest) = cs :: splitChars sep rest := by
  rw [splitChars_between, splitChars_of_notMem h]
  rfl

theorem splitChars_flatMap {ls : List (List Char)} (h : ∀ l ∈ ls, sep ∉ l) :
    splitChars sep (ls.flatMap (· ++ [sep])) = ls ++ [[]] := by
  induction ls with
  | nil => rfl
  | cons l ls ih =>
    have hl : sep ∉ l := h l (by simp)
    have hls : ∀ k ∈ ls, sep ∉ k := fun k hk => h k (by simp [hk])
    rw [List.flatMap_cons, List.append_assoc, List.singleton_append, splitChars_append hl,
      ih hls, List.cons_append]

/-- The lines of a file made of one-line texts are those texts, and an empty
one after the last line feed. -/
theorem lines_unlines {ss : List String} (h : ∀ s ∈ ss, '\n' ∉ s.toList) :
    lines (unlines ss) = ss ++ [""] := by
  have hchars : (unlines ss).toList = (ss.map String.toList).flatMap (· ++ ['\n']) := by
    simp [unlines, String.toList_join, List.flatMap_map]
  have hmap : ∀ l ∈ ss.map String.toList, '\n' ∉ l := by
    intro l hl
    obtain ⟨s, hs, rfl⟩ := List.mem_map.mp hl
    exact h s hs
  rw [lines, hchars, splitChars_flatMap hmap]
  simp

/-- Cutting `k=v` gives back `k` and `v` when `k` holds no separator. -/
theorem cut_append (sep : Char) (k v : String) (hk : sep ∉ k.toList) :
    cut sep (k ++ String.singleton sep ++ v) = some (k, v) := by
  have h := cutChars_append sep k.toList v.toList hk
  simp [cut, h]

/-! ## Trimming and fields -/

/-- A text that neither starts nor ends with white space is trimmed already. -/
theorem trimChars_eq_self (hhead : ∀ c ∈ cs.head?, isSpace c = false)
    (hlast : ∀ c ∈ cs.getLast?, isSpace c = false) : trimChars cs = cs := by
  have hdrop : ∀ ds : List Char, (∀ c ∈ ds.head?, isSpace c = false) →
      ds.dropWhile isSpace = ds := by
    intro ds hds
    cases ds with
    | nil => rfl
    | cons d ds => simp [hds d rfl]
  rw [trimChars, hdrop cs hhead, hdrop cs.reverse (by simpa using hlast), List.reverse_reverse]

/-- Dropping at the end leaves what stands before a character that stays. -/
theorem rdropWhile_append {p : Char → Bool} (pre cs : List Char)
    (h : cs.rdropWhile p ≠ []) : (pre ++ cs).rdropWhile p = pre ++ cs.rdropWhile p := by
  have hne : (cs.reverse.dropWhile p).isEmpty = false := by
    rw [List.isEmpty_eq_false_iff]
    intro hnil
    exact h (by rw [List.rdropWhile, hnil, List.reverse_nil])
  simp [List.rdropWhile, List.dropWhile_append, hne]

/-- The first field is what stands before the first white space. -/
theorem fields_append {key : List Char} (hkey : ∀ c ∈ key, isSpace c = false) (hne : key ≠ [])
    (hc : isSpace c = true) (rest : List Char) :
    fields (key ++ c :: rest) = key :: fields rest := by
  have hemp : key.isEmpty = false := by simpa using hne
  rw [fields, List.splitOnP_append_cons_of_forall_mem hkey c hc, List.filter_cons]
  simp [hemp, fields]

/-- A text that is not all white space has a field. -/
theorem fields_ne_nil (hmem : c ∈ cs) (hc : isSpace c = false) : fields cs ≠ [] := by
  induction cs with
  | nil => cases hmem
  | cons d ds ih =>
    rw [fields, List.splitOnP_cons_eq_if_modifyHead]
    split
    next hd =>
      rcases List.mem_cons.mp hmem with rfl | hmem
      · rw [hc] at hd
        cases hd
      · simpa [fields] using ih hmem
    next =>
      obtain ⟨f, fs, hfs⟩ := List.exists_cons_of_ne_nil (List.splitOnP_ne_nil isSpace ds)
      simp [hfs]

/-! ## Searching around separators -/

/-- Trimming keeps what is no white space. -/
theorem mem_trimChars (h : c ∈ cs) (hc : isSpace c = false) : c ∈ trimChars cs := by
  have hdrop : ∀ ds : List Char, c ∈ ds → c ∈ ds.dropWhile isSpace := by
    intro ds hds
    induction ds with
    | nil => cases hds
    | cons d ds ih =>
      rw [List.dropWhile_cons]
      split
      next hd =>
        rcases List.mem_cons.mp hds with rfl | hds
        · rw [hc] at hd
          cases hd
        · exact ih hds
      next => exact hds
  unfold trimChars
  exact List.mem_reverse.mpr (hdrop _ (List.mem_reverse.mpr (hdrop _ h)))

theorem trimSpace_ne_empty {s : String} (h : c ∈ s.toList) (hc : isSpace c = false) :
    trimSpace s ≠ "" := by
  intro he
  have hmem := mem_trimChars h hc
  have hnil : trimChars s.toList = [] := by
    have := congrArg String.toList he
    simpa [trimSpace] using this
  rw [hnil] at hmem
  cases hmem

/-- A list found in `pre ++ x :: post`, and that does not hold `x`, is found in
one of the two halves. -/
theorem infix_of_separator {α : Type} {m pre post : List α} {x : α} (hx : x ∉ m)
    (h : m <:+: pre ++ x :: post) : m <:+: pre ∨ m <:+: post := by
  obtain ⟨s, t, hst⟩ := h
  rw [List.append_assoc] at hst
  rcases List.append_eq_append_iff.mp hst with ⟨a, hpre, hmt⟩ | ⟨c, hs, hxp⟩
  · rcases List.append_eq_append_iff.mp hmt with ⟨b, ha, _⟩ | ⟨c, hm, hc⟩
    · exact Or.inl ⟨s, b, by rw [hpre, ha, List.append_assoc]⟩
    · cases c with
      | nil =>
        rw [List.append_nil] at hm
        exact Or.inl ⟨s, [], by rw [hpre, hm, List.append_nil]⟩
      | cons y c =>
        obtain rfl : x = y := (List.cons.inj hc).1
        exact absurd (by rw [hm]; simp) hx
  · cases c with
    | nil =>
      cases m with
      | nil => exact Or.inl List.nil_infix
      | cons y m =>
        obtain rfl : x = y := (List.cons.inj hxp).1
        exact absurd (by simp) hx
    | cons y c =>
      exact Or.inr ⟨c, t, by rw [List.append_assoc]; exact ((List.cons.inj hxp).2).symm⟩

/-- The same with a non-empty run of separators. -/
theorem infix_of_separators {α : Type} {m pre mid post : List α}
    (hmid : mid ≠ []) (hm : ∀ x ∈ mid, x ∉ m) (h : m <:+: pre ++ mid ++ post) :
    m <:+: pre ∨ m <:+: post := by
  induction mid generalizing pre with
  | nil => exact absurd rfl hmid
  | cons x mid ih =>
    rw [List.append_assoc, List.cons_append] at h
    rcases infix_of_separator (hm x (by simp)) h with hpre | hrest
    · exact Or.inl hpre
    · cases mid with
      | nil => exact Or.inr hrest
      | cons y mid =>
        have hrest' : m <:+: [] ++ (y :: mid) ++ post := by simpa using hrest
        rcases ih (by simp) (fun z hz => hm z (by simp [hz])) hrest' with hnil | hpost
        · exact Or.inl (hnil.trans List.nil_infix)
        · exact Or.inr hpost

/-! ## Digits -/

/-- The ten decimal digits. -/
def decimalDigits : List Char := ['0', '1', '2', '3', '4', '5', '6', '7', '8', '9']

theorem mem_decimalDigits (h : c.isDigit = true) : c ∈ decimalDigits := by
  simp only [Char.isDigit, Bool.and_eq_true, decide_eq_true_eq] at h
  have hlo : 48 ≤ c.toNat := h.1
  have hhi : c.toNat ≤ 57 := h.2
  rw [(Char.ofNat_toNat c).symm]
  generalize c.toNat = n at hlo hhi
  interval_cases n <;> decide

theorem lowerRune_digit (h : c ∈ decimalDigits) : lowerRune c = c := by
  revert c
  decide

end Caspian.Verified.Text
