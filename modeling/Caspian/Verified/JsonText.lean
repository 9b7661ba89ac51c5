import Caspian.Verified.Json

/-!
# JSON texts read back

What the encoder writes is read back (`parse_render`).  A text has no line end
and no ampersand in it, and what is read from any text is well formed.
-/

namespace Caspian.Verified

namespace Json

/-! ## What is written is read back -/

/-- A text the reader takes as one number. -/
def isNumber (text : List Char) : Bool := validNumber text && text.all isNumberChar

mutual

/-- The numbers of a value are numbers. -/
def wellFormed : Json → Bool
  | num text => isNumber text
  | arr xs => wellFormedElements xs
  | obj fields => wellFormedFields fields
  | _ => true

def wellFormedElements : List Json → Bool
  | [] => true
  | x :: xs => wellFormed x && wellFormedElements xs

def wellFormedFields : List (List Char × Json) → Bool
  | [] => true
  | (_, x) :: fields => wellFormed x && wellFormedFields fields

end

/-- The piece a character is written as. -/
def pieceOf (c : Char) : Piece :=
  if (letterEscapes.lookup c).isNone && needsUnicode c then .code c.toNat else .char c

variable {n : Nat}

theorem hexValue_hexDigit (h : n < 16) : hexValue (hexDigit n) = some n := by
  have hall : ∀ m < 16, hexValue (hexDigit m) = some m := by decide
  exact hall n h

theorem hexQuad_digits (h : n < 65536) :
    hexQuad (hexDigit (n / 4096 % 16)) (hexDigit (n / 256 % 16)) (hexDigit (n / 16 % 16))
      (hexDigit (n % 16)) = some n := by
  rw [hexQuad, hexValue_hexDigit (by omega), hexValue_hexDigit (by omega),
    hexValue_hexDigit (by omega), hexValue_hexDigit (by omega)]
  have hsum : n / 4096 % 16 * 4096 + n / 256 % 16 * 256 + n / 16 % 16 * 16 + n % 16 = n := by
    omega
  exact congrArg some hsum

variable {c : Char}

theorem unescape_of_lookup {letter : Char} (h : letterEscapes.lookup c = some letter) :
    unescape letter = some c := by
  have hall : ∀ p ∈ letterEscapes, unescape p.2 = some p.1 := by decide
  obtain ⟨before, after, hsplit, _⟩ := List.lookup_eq_some_iff.mp h
  have hmem : (c, letter) ∈ letterEscapes := by
    rw [hsplit]
    exact List.mem_append_right _ List.mem_cons_self
  exact hall _ hmem

/-- The characters written in digits are far from the halves of pairs. -/
theorem toNat_of_needsUnicode (h : needsUnicode c = true) : c.toNat < 0xD800 := by
  simp only [needsUnicode, Bool.or_eq_true, decide_eq_true_eq] at h
  rcases h with ((((h | rfl) | rfl) | rfl) | rfl) | rfl
  · omega
  all_goals decide

theorem pieces_escape (c : Char) (rest : List Char) :
    pieces (escapeChar c ++ rest) = mapFst (pieceOf c :: ·) (pieces rest) := by
  unfold escapeChar pieceOf
  cases hl : letterEscapes.lookup c with
  | some letter =>
    exact pieces_letter (unescape_of_lookup hl) rest
  | none =>
    simp only [Option.isNone_none, Bool.true_and]
    split_ifs with hu
    · have hsmall := toNat_of_needsUnicode hu
      exact pieces_unicode (hexQuad_digits (by omega)) rest
    · have hq : c ≠ '"' := by
        rintro rfl
        cases hl
      have hb : c ≠ '\\' := by
        rintro rfl
        cases hl
      have hc : ¬c.toNat < 32 := by
        intro hc
        simp [needsUnicode, hc] at hu
      exact pieces_plain hq hb hc rest

theorem pieces_flatMap (s rest : List Char) :
    pieces (s.flatMap escapeChar ++ '"' :: rest) = some (s.map pieceOf, rest) := by
  induction s with
  | nil => exact pieces_quote rest
  | cons c s ih =>
    rw [List.flatMap_cons, List.append_assoc, pieces_escape, ih]
    rfl

theorem join_code (h : n < 0xD800) (ps : List Piece) :
    join (.code n :: ps) = Char.ofNat n :: join ps := by
  have hhigh : isHigh n = false := by
    simp only [isHigh, Bool.and_eq_false_iff, decide_eq_false_iff_not]
    exact Or.inl (by omega)
  have hlow : isLow n = false := by
    simp only [isLow, Bool.and_eq_false_iff, decide_eq_false_iff_not]
    exact Or.inl (by omega)
  cases ps with
  | nil => simp [join, charOf, hhigh, hlow]
  | cons p ps =>
    cases p with
    | char d | code m => simp [join, charOf, hhigh, hlow]

theorem join_pieceOf (s : List Char) : join (s.map pieceOf) = s := by
  induction s with
  | nil => rfl
  | cons c s ih =>
    rw [List.map_cons, pieceOf]
    split_ifs with hu
    · rw [join_code (toNat_of_needsUnicode (Bool.and_eq_true_iff.mp hu).2), ih,
        Char.ofNat_toNat]
    · rw [join, ih]

theorem stringBody_quote (s rest : List Char) :
    stringBody (s.flatMap escapeChar ++ '"' :: rest) = some (s, rest) := by
  rw [stringBody, pieces_flatMap]
  exact congrArg (fun t => some (t, rest)) (join_pieceOf s)

/-- What stands after a number does not continue it. -/
def endsNumber (rest : List Char) : Bool := rest.head?.all fun c => !isNumberChar c

theorem key_quote (k rest : List Char) : key (quoteChars k ++ ':' :: rest) = some (k, rest) := by
  have hs : skip (quoteChars k ++ ':' :: rest) =
      '"' :: (k.flatMap escapeChar ++ '"' :: ':' :: rest) := by
    simp [quoteChars, skip, isSpace]
  rw [key, hs]
  simp only [if_pos]
  rw [stringBody_quote, Option.bind_some]
  rfl

variable {text rest : List Char}

theorem number_render (h : isNumber text = true) (hrest : endsNumber rest = true) :
    number (text ++ rest) = some (num text, rest) := by
  obtain ⟨hvalid, hall⟩ := Bool.and_eq_true_iff.mp h
  rw [List.all_eq_true] at hall
  have hstop : rest.takeWhile isNumberChar = [] ∧ rest.dropWhile isNumberChar = rest := by
    cases rest with
    | nil => exact ⟨rfl, rfl⟩
    | cons c rest =>
      have hc : isNumberChar c = false := by simpa [endsNumber] using hrest
      simp [hc]
  have htake : (text ++ rest).takeWhile isNumberChar = text := by
    rw [List.takeWhile_append_of_pos hall, hstop.1, List.append_nil]
  have hdrop : (text ++ rest).dropWhile isNumberChar = rest := by
    rw [List.dropWhile_append_of_pos hall, hstop.2]
  simp only [number, htake, hdrop, hvalid, if_pos]

/-- A number starts with a sign or a digit. -/
theorem head_of_isNumber (h : isNumber text = true) :
    ∃ c cs, text = c :: cs ∧ (c = '-' ∨ isDigit c = true) := by
  obtain ⟨hvalid, _⟩ := Bool.and_eq_true_iff.mp h
  have hunsigned : ∀ cs, unsignedNumber cs = true → ∃ c ds, cs = c :: ds ∧ isDigit c = true := by
    intro cs hcs
    unfold unsignedNumber at hcs
    split at hcs
    · exact ⟨_, _, rfl, by decide⟩
    · cases cs with
      | nil => cases hcs
      | cons c ds =>
        refine ⟨c, ds, rfl, ?_⟩
        by_contra hc
        simp [someDigits, hc] at hcs
  unfold validNumber at hvalid
  split at hvalid
  · exact ⟨_, _, rfl, Or.inl rfl⟩
  · obtain ⟨c, ds, hcs, hc⟩ := hunsigned _ hvalid
    exact ⟨c, ds, hcs, Or.inr hc⟩

theorem isSpace_of_isDigit (h : isDigit c = true) : isSpace c = false := by
  by_contra hspace
  rw [Bool.not_eq_false] at hspace
  simp only [isSpace, Bool.or_eq_true, decide_eq_true_eq] at hspace
  rcases hspace with ((rfl | rfl) | rfl) | rfl <;> cases h

theorem value_number (h : isNumber text = true) (hrest : endsNumber rest = true) :
    value (n + 1) (text ++ rest) = some (num text, rest) := by
  obtain ⟨c, cs, rfl, hc⟩ := head_of_isNumber h
  have hne : ∀ d, d ≠ '-' → isDigit d = false → c ≠ d := by
    rintro d hd hdig rfl
    rcases hc with rfl | hc
    · exact hd rfl
    · rw [hdig] at hc
      cases hc
  have hspace : isSpace c = false := by
    rcases hc with rfl | hc
    · rfl
    · exact isSpace_of_isDigit hc
  have hs : skip (c :: cs ++ rest) = c :: (cs ++ rest) := by
    rw [List.cons_append, skip, List.dropWhile_cons, hspace]
    rfl
  rw [value, hs]
  simp only
  rw [if_neg (hne _ (by decide) (by decide)), if_neg (hne _ (by decide) (by decide)),
    if_neg (hne _ (by decide) (by decide)), word, if_neg (hne _ (by decide) (by decide)),
    if_neg (hne _ (by decide) (by decide)), if_neg (hne _ (by decide) (by decide))]
  exact number_render h hrest

theorem endsNumber_elements (xs : List Json) (rest : List Char) :
    endsNumber (renderElements xs ++ rest) = true := by
  cases xs <;> rw [renderElements] <;> rfl

theorem endsNumber_fields (fields : List (List Char × Json)) (rest : List Char) :
    endsNumber (renderFields fields ++ rest) = true := by
  rcases fields with _ | ⟨⟨k, x⟩, fields⟩ <;> rw [renderFields] <;> rfl

variable {x : Json}

/-- The head of a value's text is no space and closes nothing. -/
theorem render_head (h : x.wellFormed = true) :
    ∃ c cs, render x = c :: cs ∧ isSpace c = false ∧ c ≠ ']' := by
  cases x with
  | null => exact ⟨_, _, by rw [render], by decide, by decide⟩
  | bool b =>
    cases b with
    | false | true => exact ⟨_, _, by rw [render], by decide, by decide⟩
  | num text =>
    rw [wellFormed] at h
    obtain ⟨c, cs, rfl, hc⟩ := head_of_isNumber h
    refine ⟨c, cs, by rw [render], ?_⟩
    rcases hc with rfl | hc
    · decide
    · exact ⟨isSpace_of_isDigit hc, by rintro rfl; cases hc⟩
  | str s => exact ⟨_, _, by rw [render, quoteChars], by decide, by decide⟩
  | arr xs =>
    cases xs with
    | nil | cons x xs => exact ⟨_, _, by rw [render], by decide, by decide⟩
  | obj fields =>
    rcases fields with _ | ⟨⟨k, x⟩, fields⟩ <;> exact ⟨_, _, by rw [render], by decide, by decide⟩

theorem skip_render  (h : x.wellFormed = true) (rest : List Char) :
    (skip (render x ++ rest)).head? ≠ some ']' := by
  obtain ⟨c, cs, hx, hspace, hc⟩ := render_head h
  rw [hx, List.cons_append, skip, List.dropWhile_cons, hspace]
  simpa using hc

/-- Reading back, one level of the value at a time. -/
theorem value_render_of (n : Nat) :
    (∀ x rest, x.wellFormed = true → endsNumber rest = true ∨ x.closed = true →
        2 * (render x).length ≤ n → value n (render x ++ rest) = some (x, rest)) ∧
      (∀ x xs rest, x.wellFormed = true → wellFormedElements xs = true →
        2 * ((render x).length + (renderElements xs).length) < n →
        elements n (render x ++ (renderElements xs ++ rest)) = some (x :: xs, rest)) ∧
      ∀ k x fields rest, x.wellFormed = true → wellFormedFields fields = true →
        2 * ((render x).length + (renderFields fields).length) < n →
        members n (quoteChars k ++ ':' :: (render x ++ (renderFields fields ++ rest))) =
          some ((k, x) :: fields, rest) := by
  induction n with
  | zero =>
    refine ⟨?_, ?_, ?_⟩
    · intro x rest hx _ hn
      obtain ⟨c, cs, hr, _⟩ := render_head hx
      rw [hr, List.length_cons] at hn
      omega
    · intro x xs rest _ _ hn
      omega
    · intro k x fields rest _ _ hn
      omega
  | succ n ih =>
    obtain ⟨ihv, ihe, ihm⟩ := ih
    refine ⟨?_, ?_, ?_⟩
    · intro x rest hx hr hn
      cases x with
      | null =>
        rw [render]
        rfl
      | bool b =>
        cases b <;> rw [render] <;> rfl
      | num text =>
        rw [wellFormed] at hx
        rw [render]
        exact value_number hx (hr.resolve_right (by simp [closed]))
      | str s =>
        have hs : skip (render (str s) ++ rest) =
            '"' :: (s.flatMap escapeChar ++ '"' :: rest) := by
          simp [render, quoteChars, skip, isSpace]
        rw [value, hs]
        simp only [if_pos]
        rw [stringBody_quote]
        rfl
      | arr xs =>
        rcases xs with _ | ⟨x, xs⟩
        · rw [render]
          rfl
        · rw [wellFormed, wellFormedElements, Bool.and_eq_true_iff] at hx
          rw [render, List.length_cons, List.length_append] at hn
          have hs : skip (render (arr (x :: xs)) ++ rest) =
              '[' :: (render x ++ (renderElements xs ++ rest)) := by
            simp [render, skip, isSpace]
          rw [value, hs]
          simp only [if_pos]
          rw [if_neg (by decide), if_neg (skip_render hx.1 _),
            ihe x xs rest hx.1 hx.2 (by omega)]
          rfl
      | obj fields =>
        rcases fields with _ | ⟨⟨k, x⟩, fields⟩
        · rw [render]
          rfl
        · rw [wellFormed, wellFormedFields, Bool.and_eq_true_iff] at hx
          rw [render, List.length_cons, List.length_append, List.length_cons,
            List.length_append] at hn
          have hs : skip (render (obj ((k, x) :: fields)) ++ rest) =
              '\x7b' :: (quoteChars k ++ ':' :: (render x ++ (renderFields fields ++ rest))) := by
            simp [render, skip, isSpace]
          have hq : (skip (quoteChars k ++
              ':' :: (render x ++ (renderFields fields ++ rest)))).head? ≠ some '\x7d' := by
            simp [quoteChars, skip, isSpace]
          rw [value, hs]
          simp only [if_pos]
          rw [if_neg (by decide), if_neg (by decide), if_neg hq,
            ihm k x fields rest hx.1 hx.2 (by omega)]
          rfl
    · intro x xs rest hx hxs hn
      rw [elements, ihv x _ hx (Or.inl (endsNumber_elements xs rest)) (by omega),
        Option.bind_some]
      cases xs with
      | nil =>
        rw [renderElements]
        rfl
      | cons y ys =>
        rw [wellFormedElements, Bool.and_eq_true_iff] at hxs
        rw [renderElements, List.length_cons, List.length_append] at hn
        have hs : skip (renderElements (y :: ys) ++ rest) =
            ',' :: (render y ++ (renderElements ys ++ rest)) := by
          simp [renderElements, skip, isSpace]
        simp only [hs, if_pos]
        rw [ihe y ys rest hxs.1 hxs.2 (by omega)]
        rfl
    · intro k x fields rest hx hfs hn
      rw [members, key_quote, Option.bind_some,
        ihv x _ hx (Or.inl (endsNumber_fields fields rest)) (by omega), Option.bind_some]
      rcases fields with _ | ⟨⟨k', y⟩, fields⟩
      · rw [renderFields]
        rfl
      · rw [wellFormedFields, Bool.and_eq_true_iff] at hfs
        rw [renderFields, List.length_cons, List.length_append, List.length_cons,
          List.length_append] at hn
        have hs : skip (renderFields ((k', y) :: fields) ++ rest) =
            ',' :: (quoteChars k' ++ ':' :: (render y ++ (renderFields fields ++ rest))) := by
          simp [renderFields, skip, isSpace]
        simp only [hs, if_pos]
        rw [ihm k' y fields rest hfs.1 hfs.2 (by omega)]
        rfl

/-- What is written is read back. -/
theorem parse_render  (h : x.wellFormed = true) : parse (render x) = some x := by
  have hv := (value_render_of (2 * (render x).length + 2)).1 x [] h (Or.inl rfl) (by omega)
  rw [List.append_nil] at hv
  rw [parse, hv]
  rfl

theorem render_obj_head (fields : List (List Char × Json)) :
    ∃ cs, render (obj fields) = '\x7b' :: cs := by
  rcases fields with _ | ⟨⟨k, x⟩, fields⟩ <;> exact ⟨_, by rw [render]⟩

variable {cs : List Char}

theorem value_of_parse   (h : parse cs = some x) :
    ∃ n rest, value n cs = some (x, rest) ∧ skip rest = [] := by
  unfold parse at h
  split at h
  next y rest hv =>
    split_ifs at h with hend
    cases h
    exact ⟨_, rest, hv, List.isEmpty_iff.mp hend⟩
  next => cases h

/-! ## The characters of a text -/

/-- A character no text has: an ampersand, which the encoder escapes, or the end
of a line. -/
def foreign (c : Char) : Bool := c = '&' || c = '\n'

theorem foreign_hexDigit (n : Nat) : foreign (hexDigit n) = false := by
  have hall : ∀ c ∈ hexDigits, foreign c = false := by decide
  unfold hexDigit
  rw [List.getD_eq_getElem?_getD]
  cases hget : hexDigits[n]? with
  | none => decide
  | some c => exact hall c (List.mem_of_getElem? hget)

theorem foreign_escapeChar (c : Char) : ∀ d ∈ escapeChar c, foreign d = false := by
  intro d hd
  unfold escapeChar at hd
  cases hl : letterEscapes.lookup c with
  | some letter =>
    rw [hl] at hd
    obtain ⟨pre, post, hmem, -⟩ := List.lookup_eq_some_iff.mp hl
    have hall : ∀ p ∈ letterEscapes, foreign p.2 = false := by decide
    have hletter : foreign letter = false :=
      hall (c, letter) (by rw [hmem]; simp)
    simp only [List.mem_cons, List.not_mem_nil, or_false] at hd
    rcases hd with rfl | rfl
    · decide
    · exact hletter
  | none =>
    rw [hl] at hd
    simp only at hd
    split_ifs at hd with hu
    · simp only [unicodeEscape, List.mem_cons, List.not_mem_nil, or_false] at hd
      rcases hd with rfl | rfl | rfl | rfl | rfl | rfl
      · decide
      · decide
      · exact foreign_hexDigit _
      · exact foreign_hexDigit _
      · exact foreign_hexDigit _
      · exact foreign_hexDigit _
    · obtain rfl := List.mem_singleton.mp hd
      by_contra hf
      rw [Bool.not_eq_false, foreign, Bool.or_eq_true, decide_eq_true_eq,
        decide_eq_true_eq] at hf
      rcases hf with rfl | rfl
      · exact hu (by decide)
      · exact absurd hl (by decide)

theorem foreign_quoteChars (s : List Char) : ∀ d ∈ quoteChars s, foreign d = false := by
  intro d hd
  simp only [quoteChars, List.mem_cons, List.mem_append, List.mem_flatMap, List.not_mem_nil,
    or_false] at hd
  rcases hd with rfl | ⟨c, _, hc⟩ | rfl
  · decide
  · exact foreign_escapeChar c d hc
  · decide

theorem foreign_of_isNumberChar  (h : isNumberChar c = true) : foreign c = false := by
  by_contra hf
  rw [Bool.not_eq_false, foreign, Bool.or_eq_true, decide_eq_true_eq, decide_eq_true_eq] at hf
  rcases hf with rfl | rfl <;> exact absurd h (by decide)

/-- The text of a value has no ampersand and no line end. -/
theorem foreign_render (x : Json) (h : x.wellFormed = true) : ∀ c ∈ render x, foreign c = false := by
  induction x using Json.induction with
  | null =>
    rw [render]
    decide
  | bool b => cases b <;> rw [render] <;> decide
  | num text =>
    rw [wellFormed, isNumber, Bool.and_eq_true, List.all_eq_true] at h
    rw [render]
    exact fun c hc => foreign_of_isNumberChar (h.2 c hc)
  | str s =>
    rw [render]
    exact foreign_quoteChars s
  | arr xs ih =>
    rw [wellFormed] at h
    have hrest : ∀ c ∈ renderElements xs, foreign c = false := by
      induction xs with
      | nil =>
        rw [renderElements]
        decide
      | cons x xs ihxs =>
        rw [wellFormedElements, Bool.and_eq_true] at h
        obtain ⟨hx, hxs⟩ := List.forall_mem_cons.mp ih
        simp only [renderElements, List.forall_mem_cons, List.forall_mem_append]
        exact ⟨by decide, hx h.1, ihxs hxs h.2⟩
    cases xs with
    | nil =>
      rw [render]
      decide
    | cons x xs =>
      rw [renderElements, List.forall_mem_cons] at hrest
      rw [render, List.forall_mem_cons]
      exact ⟨by decide, hrest.2⟩
  | obj fields ih =>
    rw [wellFormed] at h
    have hrest : ∀ c ∈ renderFields fields, foreign c = false := by
      induction fields with
      | nil =>
        rw [renderFields]
        decide
      | cons f fields ihfields =>
        rw [wellFormedFields, Bool.and_eq_true] at h
        obtain ⟨hf, hfields⟩ := List.forall_mem_cons.mp ih
        simp only [renderFields, List.forall_mem_cons, List.forall_mem_append]
        exact ⟨by decide, foreign_quoteChars _, by decide, hf h.1, ihfields hfields h.2⟩
    cases fields with
    | nil =>
      rw [render]
      decide
    | cons f fields =>
      rw [renderFields, List.forall_mem_cons] at hrest
      rw [render, List.forall_mem_cons]
      exact ⟨by decide, hrest.2⟩

theorem getLast_renderFields (fields : List (List Char × Json)) :
    (renderFields fields).getLast? = some '\x7d' := by
  induction fields with
  | nil =>
    rw [renderFields]
    rfl
  | cons f fields ih =>
    obtain ⟨k, x⟩ := f
    have hne : renderFields fields ≠ [] := by
      intro h
      rw [h] at ih
      cases ih
    rw [renderFields, ← List.singleton_append, ← List.singleton_append (l := _ ++ _),
      ← List.append_assoc, ← List.append_assoc, ← List.append_assoc,
      List.getLast?_append_of_ne_nil _ hne, ih]

/-- An object's text ends with its brace. -/
theorem getLast_render_obj (fields : List (List Char × Json)) :
    (render (obj fields)).getLast? = some '\x7d' := by
  rcases fields with _ | ⟨⟨k, x⟩, fields⟩
  · rw [render]
    rfl
  · have hne : renderFields fields ≠ [] := by
      intro h
      have hlast := getLast_renderFields fields
      rw [h] at hlast
      cases hlast
    rw [render, ← List.singleton_append, ← List.singleton_append (l := _ ++ _),
      ← List.append_assoc, ← List.append_assoc, ← List.append_assoc,
      List.getLast?_append_of_ne_nil _ hne, getLast_renderFields]

/-! ## What is read is well formed -/

theorem wellFormed_of_word   
    (h : word c rest = some (x, cs)) : x.wellFormed = true := by
  have hliteral : ∀ {y : Json} {w : List Char}, y.wellFormed = true →
      literal y w rest = some (x, cs) → x.wellFormed = true := by
    intro y w hy hl
    unfold literal at hl
    split_ifs at hl
    cases hl
    exact hy
  unfold word at h
  split_ifs at h
  · exact hliteral (by simp only [wellFormed]) h
  · exact hliteral (by simp only [wellFormed]) h
  · exact hliteral (by simp only [wellFormed]) h
  · unfold number at h
    simp only at h
    split_ifs at h with hvalid
    cases h
    rw [wellFormed, isNumber, hvalid, Bool.true_and, List.all_eq_true]
    exact fun d hd => List.mem_takeWhile_imp hd

theorem of_mapFst {α β : Type} {f : α → β} {x : Option (α × List Char)} {b : β}
     (h : mapFst f x = some (b, rest)) : ∃ a, x = some (a, rest) ∧ b = f a := by
  obtain ⟨⟨a, r⟩, ha, heq⟩ := Option.map_eq_some_iff.mp h
  obtain ⟨rfl, rfl⟩ := Prod.mk.inj heq
  exact ⟨a, ha, rfl⟩

theorem wellFormed_of_value (n : Nat) :
    (∀ cs x rest, value n cs = some (x, rest) → x.wellFormed = true) ∧
      (∀ cs xs rest, elements n cs = some (xs, rest) → wellFormedElements xs = true) ∧
      ∀ cs fs rest, members n cs = some (fs, rest) → wellFormedFields fs = true := by
  induction n with
  | zero =>
    refine ⟨?_, ?_, ?_⟩
    · intro cs x rest h
      cases h
    · intro cs xs rest h
      cases h
    · intro cs fs rest h
      cases h
  | succ n ih =>
    obtain ⟨ihv, ihe, ihm⟩ := ih
    refine ⟨?_, ?_, ?_⟩
    · intro cs x rest h
      rw [value] at h
      cases hs : skip cs with
      | nil =>
        rw [hs] at h
        cases h
      | cons c cs' =>
        rw [hs] at h
        simp only at h
        split_ifs at h
        · obtain ⟨s, _, rfl⟩ := of_mapFst h
          simp only [wellFormed]
        · cases h
          simp only [wellFormed, wellFormedElements]
        · obtain ⟨xs, hxs, rfl⟩ := of_mapFst h
          simpa only [wellFormed] using ihe _ _ _ hxs
        · cases h
          simp only [wellFormed, wellFormedFields]
        · obtain ⟨fs, hfs, rfl⟩ := of_mapFst h
          simpa only [wellFormed] using ihm _ _ _ hfs
        · exact wellFormed_of_word h
    · intro cs xs rest h
      rw [elements] at h
      obtain ⟨⟨x, r⟩, hv, h⟩ := Option.bind_eq_some_iff.mp h
      have hx := ihv _ _ _ hv
      simp only at h
      cases hs : skip r with
      | nil =>
        rw [hs] at h
        cases h
      | cons c cs' =>
        rw [hs] at h
        simp only at h
        split_ifs at h
        · obtain ⟨ys, hys, rfl⟩ := of_mapFst h
          simp only [wellFormedElements, hx, ihe _ _ _ hys, Bool.and_self]
        · cases h
          simp only [wellFormedElements, hx, Bool.and_self]
    · intro cs fs rest h
      rw [members] at h
      obtain ⟨⟨k, r₀⟩, _, h⟩ := Option.bind_eq_some_iff.mp h
      obtain ⟨⟨x, r⟩, hv, h⟩ := Option.bind_eq_some_iff.mp h
      have hx := ihv _ _ _ hv
      simp only at h
      cases hs : skip r with
      | nil =>
        rw [hs] at h
        cases h
      | cons c cs' =>
        rw [hs] at h
        simp only at h
        split_ifs at h
        · obtain ⟨gs, hgs, rfl⟩ := of_mapFst h
          simp only [wellFormedFields, hx, ihm _ _ _ hgs, Bool.and_self]
        · cases h
          simp only [wellFormedFields, hx, Bool.and_self]

/-- The numbers of a value that was read are numbers. -/
theorem wellFormed_of_parse   (h : parse cs = some x) :
    x.wellFormed = true := by
  obtain ⟨n, rest, hv, _⟩ := value_of_parse h
  exact (wellFormed_of_value n).1 cs x rest hv

end Json

end Caspian.Verified
