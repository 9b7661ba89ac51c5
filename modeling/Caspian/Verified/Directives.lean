import Caspian.Verified.Text

/-!
# Configuration files of one directive a line

The files a daemon reads line by line: a line is empty, a comment, a bare
word, or a name and a value separated by the first `=`.  A writer that puts a
value into such a file has written what it meant only if the reader finds
that value again, and the one thing a value can do to the reader is to hold a
line feed.  `Line` is a line as a writer means it, `directives` is the reader,
and the two meet in `directives_render`; `line_feed_notMem` says the other
half, that no value the reader reports ever holds a line feed.

The names and the comments are the writer's own text, so a `Line` carries the
proof that they are readable as such; only the values are left to the caller.
-/

namespace Caspian.Verified.Directives

/-! ## Lines as they are meant -/

/-- Characters the reader skips: they start with `#` and are one line. -/
def isComment (cs : List Char) : Bool :=
  cs.head? = some '#' && !cs.contains '\n'

/-- Characters the reader takes for a name: some, no comment, one line and
without the separator. -/
def isName (cs : List Char) : Bool :=
  cs ≠ [] && cs.head? ≠ some '#' && !cs.contains '=' && !cs.contains '\n'

/-- A check of a text written out in the file.  It is stated of the characters
and not of `String.toList`: a literal is its characters by definition, while
decoding its bytes in the kernel takes a second a line. -/
def Spelled (check : List Char → Bool) (s : String) : Prop :=
  ∃ cs, s = String.ofList cs ∧ check cs = true

variable {s : String}

theorem Spelled.toList {check : List Char → Bool} (h : Spelled check s) :
    check s.toList = true := by
  obtain ⟨cs, rfl, hcs⟩ := h
  rw [String.toList_ofList]
  exact hcs

inductive Line where
  | blank
  | comment (text : String) (wf : Spelled isComment text := by exact ⟨_, rfl, by decide⟩)
  | flag (name : String) (wf : Spelled isName name := by exact ⟨_, rfl, by decide⟩)
  | setting (name value : String)
      (wf : Spelled isName name := by exact ⟨_, rfl, by decide⟩)

/-- A directive as the reader reports it. -/
abbrev Directive := String × Option String

namespace Line

/-- The line as it stands in the file. -/
def text : Line → String
  | blank => ""
  | comment t _ => t
  | flag n _ => n
  | setting n v _ => n ++ "=" ++ v

/-- The directive the line is meant to be. -/
def directive : Line → Option Directive
  | blank => none
  | comment _ _ => none
  | flag n _ => some (n, none)
  | setting n v _ => some (n, some v)

end Line

/-- The file. -/
def render (ls : List Line) : String :=
  Text.unlines (ls.map Line.text)

/-! ## The reader -/

/-- One line as the reader takes it. -/
def readLine (s : String) : Option Directive :=
  if s = "" ∨ s.toList.head? = some '#' then none
  else
    match Text.cut '=' s with
    | some (n, v) => some (n, some v)
    | none => some (s, none)

/-- Every directive of a file, in order. -/
def directives (s : String) : List Directive :=
  (Text.lines s).filterMap readLine

/-! ## What is meant is what is read -/

theorem Spelled.isName (h : Spelled isName s) :
    s ≠ "" ∧ s.toList.head? ≠ some '#' ∧ '=' ∉ s.toList ∧ '\n' ∉ s.toList := by
  simpa [Directives.isName, and_assoc] using h.toList

theorem Spelled.isComment (h : Spelled isComment s) :
    s.toList.head? = some '#' ∧ '\n' ∉ s.toList := by
  simpa [Directives.isComment] using h.toList

theorem head_append_of_ne {t : String} (h : s ≠ "") : (s ++ t).toList.head? = s.toList.head? := by
  have hs : s.toList ≠ [] := by simpa using h
  rw [String.toList_append, List.head?_append_of_ne_nil _ hs]

theorem readLine_text (l : Line) : readLine l.text = l.directive := by
  cases l with
  | blank => rfl
  | comment t wf => exact if_pos (Or.inr wf.isComment.1)
  | flag n wf =>
    obtain ⟨hne, hhead, heq, -⟩ := wf.isName
    have hcut : Text.cut '=' n = none := by
      rw [Text.cut, Text.cutChars_of_notMem heq]
      rfl
    show readLine n = some (n, none)
    rw [readLine, if_neg (not_or.mpr ⟨hne, hhead⟩), hcut]
  | setting n v wf =>
    obtain ⟨hne, hhead, heq, -⟩ := wf.isName
    have hnonempty : n ++ "=" ++ v ≠ "" := by simp
    have hstart : (n ++ "=" ++ v).toList.head? ≠ some '#' := by
      rw [String.append_assoc, head_append_of_ne hne]
      exact hhead
    have hcut : Text.cut '=' (n ++ "=" ++ v) = some (n, v) := Text.cut_append '=' n v heq
    show readLine (n ++ "=" ++ v) = some (n, some v)
    rw [readLine, if_neg (not_or.mpr ⟨hnonempty, hstart⟩), hcut]

theorem line_feed_notMem_text {l : Line}
    (h : ∀ d ∈ l.directive, ∀ v ∈ d.2, '\n' ∉ v.toList) : '\n' ∉ l.text.toList := by
  cases l with
  | blank => exact List.not_mem_nil
  | comment t wf => exact wf.isComment.2
  | flag n wf => exact wf.isName.2.2.2
  | setting n v wf =>
    show '\n' ∉ (n ++ "=" ++ v).toList
    rw [String.toList_append, String.toList_append, List.mem_append, List.mem_append]
    rintro ((hn | heq) | hv)
    · exact wf.isName.2.2.2 hn
    · exact absurd heq (by decide)
    · exact h (n, some v) rfl v rfl hv

/-- **A file whose values are one line each is read as it is meant.** -/
theorem directives_render {ls : List Line}
    (h : ∀ d ∈ ls.filterMap Line.directive, ∀ v ∈ d.2, '\n' ∉ v.toList) :
    directives (render ls) = ls.filterMap Line.directive := by
  have hlines : ∀ s ∈ ls.map Line.text, '\n' ∉ s.toList := by
    intro s hs
    obtain ⟨l, hl, rfl⟩ := List.mem_map.mp hs
    exact line_feed_notMem_text fun d hd => h d (List.mem_filterMap.mpr ⟨l, hl, hd⟩)
  rw [directives, render, Text.lines_unlines hlines, List.filterMap_append, List.filterMap_map]
  show ls.filterMap (fun l => readLine l.text) ++ [] = _
  rw [List.append_nil]
  simp only [readLine_text]

variable {sep : Char}

theorem notMem_of_mem_splitChars {cs piece : List Char} (h : piece ∈ Text.splitChars sep cs) :
    sep ∉ piece := by
  induction cs generalizing piece with
  | nil =>
    rw [List.mem_singleton.mp h]
    exact List.not_mem_nil
  | cons c cs ih =>
    unfold Text.splitChars at h
    split at h
    · rcases List.mem_cons.mp h with rfl | h
      · exact List.not_mem_nil
      · exact ih h
    · rename_i hc
      split at h
      · rw [List.mem_singleton.mp h, List.mem_singleton]
        exact Ne.symm hc
      · rename_i first rest hsplit
        rcases List.mem_cons.mp h with rfl | h
        · rw [List.mem_cons, not_or]
          exact ⟨Ne.symm hc, ih (by rw [hsplit]; exact List.mem_cons_self)⟩
        · exact ih (by rw [hsplit]; exact List.mem_cons_of_mem _ h)

theorem subset_of_cutChars {cs k v : List Char} (h : Text.cutChars sep cs = some (k, v)) :
    v ⊆ cs := by
  induction cs generalizing k with
  | nil => cases h
  | cons c cs ih =>
    unfold Text.cutChars at h
    split at h
    · cases h
      exact List.subset_cons_self _ _
    · obtain ⟨p, hp, hpair⟩ := Option.map_eq_some_iff.mp h
      cases hpair
      exact fun x hx => List.mem_cons_of_mem _ (ih hp hx)

/-- **No value the reader reports holds a line feed.** -/
theorem line_feed_notMem {n v : String} (h : (n, some v) ∈ directives s) : '\n' ∉ v.toList := by
  obtain ⟨line, hline, hread⟩ := List.mem_filterMap.mp h
  obtain ⟨piece, hpiece, rfl⟩ := List.mem_map.mp hline
  have hfree : '\n' ∉ piece := notMem_of_mem_splitChars hpiece
  unfold readLine at hread
  split at hread
  · cases hread
  · split at hread
    · rename_i n' v' hcut
      cases hread
      obtain ⟨p, hp, hpair⟩ := Option.map_eq_some_iff.mp hcut
      cases hpair
      rw [String.toList_ofList] at hp ⊢
      exact fun hmem => hfree (subset_of_cutChars hp hmem)
    · cases hread

/-- What stands between two separators is a piece, and not the first one. -/
theorem mem_tail_splitChars {piece : List Char} (h : sep ∉ piece) (pre post : List Char) :
    piece ∈ (Text.splitChars sep (pre ++ sep :: (piece ++ sep :: post))).tail := by
  induction pre with
  | nil =>
    rw [List.nil_append, Text.splitChars, if_pos rfl, Text.splitChars_append h]
    exact List.mem_cons_self
  | cons c cs ih =>
    rw [List.cons_append, Text.splitChars]
    split
    · exact List.mem_of_mem_tail ih
    · -- the first piece grows by `c`, the later ones stay
      split
      · rename_i hnil
        rw [hnil] at ih
        cases ih
      · rename_i hsplit
        rw [hsplit] at ih
        exact ih

/-- **A value with a line feed in it writes a directive of its own.** -/
theorem mem_directives_of_injected {a b : List Line} {n v line : String} {d : Directive}
    {wf : Spelled isName n} (hline : '\n' ∉ line.toList) (hd : readLine line = some d) :
    d ∈ directives (render (a ++ .setting n (v ++ "\n" ++ line) wf :: b)) := by
  have htext : (render (a ++ .setting n (v ++ "\n" ++ line) wf :: b)).toList =
      (Text.unlines (a.map Line.text) ++ n ++ "=" ++ v).toList ++
        '\n' :: (line.toList ++ '\n' :: (Text.unlines (b.map Line.text)).toList) := by
    simp [render, Text.unlines, Line.text, String.toList_join]
  refine List.mem_filterMap.mpr ⟨line, ?_, hd⟩
  refine List.mem_map.mpr ⟨line.toList, ?_, String.ofList_toList⟩
  rw [htext]
  exact List.mem_of_mem_tail (mem_tail_splitChars hline _ _)

end Caspian.Verified.Directives
