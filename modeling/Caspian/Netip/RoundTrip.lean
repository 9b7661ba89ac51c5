import Caspian.Netip.Parse

/-!
# An address is read back from its text

`ParseAddr` of what `String` prints is the address that was printed, and the
same for a prefix.  The sixteen-byte form is the only one with an argument in
it: the printer folds the longest run of zero groups into `::`, the reader
counts the groups it has seen and fills the gap, and the two agree because the
run consists of zeros and is at least two groups long.
-/

namespace Caspian.Netip

open Verified

/-! ## Digits -/

variable {n : Nat}

theorem hexDigit_digitChar (h : n < 16) : hexDigit n.digitChar = some n := by
  interval_cases n <;> decide

section Digits

variable {b : Nat}

/-- What holds of every digit of a base holds of every character of a number
printed in it. -/
theorem forall_mem_toDigits (hb : 1 < b) {P : Char → Prop} (hP : ∀ d < b, P d.digitChar) (n : Nat) :
    ∀ c ∈ Nat.toDigits b n, P c := by
  induction n using Nat.strongRecOn with
  | ind n ih =>
    by_cases hn : n < b
    · rw [Nat.toDigits_of_lt_base hn]
      intro c hc
      rw [List.mem_singleton.mp hc]
      exact hP n hn
    · rw [Nat.toDigits_of_base_le hb (by omega)]
      intro c hc
      rcases List.mem_append.mp hc with hc | hc
      · exact ih (n / b) (Nat.div_lt_self (by omega) hb) c hc
      · rw [List.mem_singleton.mp hc]
        exact hP (n % b) (Nat.mod_lt n (by omega))

theorem readDigits_toDigits (hb : 1 < b) (hb' : b ≤ 16) (n : Nat) :
    readDigits b (Nat.toDigits b n) = n := by
  induction n using Nat.strongRecOn with
  | ind n ih =>
    by_cases hn : n < b
    · rw [Nat.toDigits_of_lt_base hn]
      show 0 * b + (hexDigit n.digitChar).getD 0 = n
      rw [hexDigit_digitChar (by omega)]
      simp
    · have hmod : n % b < b := Nat.mod_lt n (by omega)
      rw [Nat.toDigits_of_base_le hb (by omega), readDigits, List.foldl_append]
      show readDigits b (Nat.toDigits b (n / b)) * b +
        (hexDigit (n % b).digitChar).getD 0 = n
      rw [ih (n / b) (Nat.div_lt_self (by omega) hb), hexDigit_digitChar (by omega)]
      exact Nat.div_add_mod' n b

/-- A number that is not zero is printed without a leading zero. -/
theorem head_toDigits (hb : 1 < b) (hb' : b ≤ 16) (hn : 0 < n) :
    (Nat.toDigits b n).head? ≠ some '0' := by
  induction n using Nat.strongRecOn with
  | ind n ih =>
    by_cases hlt : n < b
    · rw [Nat.toDigits_of_lt_base hlt]
      intro h
      have hzero : hexDigit n.digitChar = hexDigit '0' := by
        rw [Option.some.inj h]
      rw [hexDigit_digitChar (by omega)] at hzero
      have : n = 0 := Option.some.inj (hzero.trans (by decide))
      omega
    · have hdiv : 0 < n / b := Nat.div_pos (by omega) (by omega)
      rw [Nat.toDigits_of_base_le hb (by omega),
        List.head?_append_of_ne_nil _ Nat.toDigits_ne_nil]
      exact ih (n / b) (Nat.div_lt_self (by omega) hb) hdiv

end Digits

/-- Decimal digits as a list of characters. -/
theorem itoa_toList (n : Nat) : (itoa n).toList = Nat.toDigits 10 n := by
  simp [itoa]

theorem isDec_toDigits (n : Nat) : ∀ c ∈ Nat.toDigits 10 n, isDec c = true :=
  forall_mem_toDigits (by decide) (by decide) n

theorem isHex_toDigits {b : Nat} (hb : 1 < b) (hb' : b ≤ 16) (n : Nat) :
    ∀ c ∈ Nat.toDigits b n, isHex c = true := by
  refine forall_mem_toDigits hb ?_ n
  intro d hd
  rw [isHex, hexDigit_digitChar (by omega)]
  rfl

theorem noLeadingZero_toDigits (n : Nat) :
    (Nat.toDigits 10 n).length = 1 ∨ (Nat.toDigits 10 n).head? ≠ some '0' := by
  by_cases hn : n = 0
  · exact Or.inl (by rw [hn]; rfl)
  · exact Or.inr (head_toDigits (by decide) (by decide) (by omega))

theorem parseOctet_toDigits (h : n ≤ 255) : parseOctet (Nat.toDigits 10 n) = some n := by
  have hread : readDigits 10 (Nat.toDigits 10 n) = n := readDigits_toDigits (by decide) (by decide) n
  rw [parseOctet, hread, if_pos]
  exact ⟨Nat.toDigits_ne_nil, List.all_eq_true.mpr (isDec_toDigits n),
    noLeadingZero_toDigits n, h⟩

theorem parseBits_toDigits (n : Nat) : parseBits (Nat.toDigits 10 n) = some n := by
  have hread : readDigits 10 (Nat.toDigits 10 n) = n := readDigits_toDigits (by decide) (by decide) n
  rw [parseBits, hread, if_pos]
  exact ⟨Nat.toDigits_ne_nil, List.all_eq_true.mpr (isDec_toDigits n),
    noLeadingZero_toDigits n⟩

variable {c : Char}

/-- A character that is no digit of the base is not in a printed number. -/
theorem notMem_toDigits {b : Nat} (hb : 1 < b) (hb' : b ≤ 16) (hc : isHex c = false) (n : Nat) :
    c ∉ Nat.toDigits b n := by
  intro hmem
  rw [isHex_toDigits hb hb' n c hmem] at hc
  cases hc

/-! ## Four bytes -/

theorem dotted_toList (n : Nat) :
    (dotted n).toList =
      Nat.toDigits 10 (n / 2 ^ 24 % 256) ++ '.' :: (Nat.toDigits 10 (n / 2 ^ 16 % 256) ++
        '.' :: (Nat.toDigits 10 (n / 2 ^ 8 % 256) ++ '.' :: Nat.toDigits 10 (n % 256))) := by
  simp [dotted, octets, itoa, String.intercalate_cons_cons]

theorem parseIPv4Fields_dotted (h : n < 2 ^ 32) : parseIPv4Fields (dotted n).toList = some n := by
  have hdot : ∀ m, '.' ∉ Nat.toDigits 10 m :=
    notMem_toDigits (by decide) (by decide) (by decide)
  have hoctet : ∀ m, parseOctet (Nat.toDigits 10 (m % 256)) = some (m % 256) :=
    fun m => parseOctet_toDigits (by omega)
  rw [parseIPv4Fields, dotted_toList, Text.splitChars_append (hdot _),
    Text.splitChars_append (hdot _), Text.splitChars_append (hdot _),
    Text.splitChars_of_notMem (hdot _)]
  simp only [List.map_cons, List.map_nil, hoctet, Option.some.injEq]
  omega

/-! ## Sixteen bytes -/

/-- The groups with colons between them, as characters. -/
def colonChars : List Nat → List Char
  | [] => []
  | [g] => Nat.toDigits 16 g
  | g :: h :: gs => Nat.toDigits 16 g ++ ':' :: colonChars (h :: gs)

theorem colons_toList (gs : List Nat) : (colons gs).toList = colonChars gs := by
  induction gs with
  | nil => rfl
  | cons g gs ih =>
    cases gs with
    | nil => simp [colons, hexText, colonChars]
    | cons h gs =>
      have hcons : (colons (g :: h :: gs)).toList =
          Nat.toDigits 16 g ++ ':' :: (colons (h :: gs)).toList := by
        simp [colons, hexText, String.intercalate_cons_cons]
      rw [hcons, ih]
      rfl

/-- The text of at least one group starts with a digit. -/
theorem colonChars_head (g : Nat) (gs : List Nat) :
    ∃ c cs, colonChars (g :: gs) = c :: cs ∧ isHex c = true := by
  obtain ⟨c, cs, hcs⟩ := List.exists_cons_of_ne_nil (Nat.toDigits_ne_nil (n := g) (b := 16))
  have hmem : c ∈ Nat.toDigits 16 g := by
    rw [hcs]
    exact List.mem_cons_self ..
  have hc : isHex c = true := isHex_toDigits (by decide) (by decide) g c hmem
  cases gs with
  | nil => exact ⟨c, cs, hcs, hc⟩
  | cons h gs => exact ⟨c, cs ++ ':' :: colonChars (h :: gs), by rw [colonChars, hcs]; rfl, hc⟩

theorem takeWhile_group (g : Nat) (rest : List Char) :
    (Nat.toDigits 16 g ++ ':' :: rest).takeWhile isHex = Nat.toDigits 16 g := by
  rw [List.takeWhile_append_of_pos (isHex_toDigits (by decide) (by decide) g)]
  simp [show isHex ':' = false by decide]

variable {g : Nat}

theorem length_group (hg : g < 65536) : (Nat.toDigits 16 g).length ≤ 4 :=
  (Nat.length_toDigits_le_iff (by decide) (by decide)).mpr hg

variable {left : Nat} {done : List Nat}

/-- The last group of a text. -/
theorem v6Loop_last {ell : Option Nat} (hg : g < 65536) :
    v6Loop (left + 1) done ell (Nat.toDigits 16 g) = some (done ++ [g], ell) := by
  have htake : (Nat.toDigits 16 g).takeWhile isHex = Nat.toDigits 16 g :=
    List.takeWhile_eq_self_iff.mpr (isHex_toDigits (by decide) (by decide) g)
  have hlen := length_group hg
  rw [v6Loop]
  simp only [htake, List.drop_length, readDigits_toDigits (by decide : 1 < 16) (by decide)]
  rw [if_neg (by simp [Nat.toDigits_ne_nil]; omega)]

/-- A group with another one behind it. -/
theorem v6Loop_group {ell : Option Nat} (hg : g < 65536) {cs : List Char} (hc : isHex c = true) :
    v6Loop (left + 1) done ell (Nat.toDigits 16 g ++ ':' :: c :: cs) =
      v6Loop left (done ++ [g]) ell (c :: cs) := by
  have hlen := length_group hg
  have hcolon : c ≠ ':' := fun h => by rw [h] at hc; exact absurd hc (by decide)
  rw [v6Loop]
  simp only [takeWhile_group, List.drop_left, readDigits_toDigits (by decide : 1 < 16) (by decide)]
  rw [if_neg (by simp [Nat.toDigits_ne_nil]; omega)]
  split <;> simp_all

/-- The group in front of the gap. -/
theorem v6Loop_gap (hg : g < 65536) (rest : List Char) :
    v6Loop (left + 1) done none (Nat.toDigits 16 g ++ ':' :: ':' :: rest) =
      if rest.isEmpty then some (done ++ [g], some (done ++ [g]).length)
      else v6Loop left (done ++ [g]) (some (done ++ [g]).length) rest := by
  have hlen := length_group hg
  rw [v6Loop]
  simp only [takeWhile_group, List.drop_left, readDigits_toDigits (by decide : 1 < 16) (by decide)]
  rw [if_neg (by simp [Nat.toDigits_ne_nil]; omega)]
  simp

variable {gs : List Nat}

/-- Reading groups with colons between them, up to the end of the text. -/
theorem v6Loop_colons (hgs : ∀ g ∈ gs, g < 65536) (hne : gs ≠ []) :
    ∀ {left : Nat} (done : List Nat) (ell : Option Nat), gs.length ≤ left →
      v6Loop left done ell (colonChars gs) = some (done ++ gs, ell) := by
  induction gs with
  | nil => exact absurd rfl hne
  | cons g gs ih =>
    intro left done ell hleft
    have hg : g < 65536 := hgs g (List.mem_cons_self ..)
    obtain ⟨left, rfl⟩ : ∃ k, left = k + 1 := ⟨left - 1, by simp at hleft; omega⟩
    cases gs with
    | nil => exact v6Loop_last hg
    | cons h gs =>
      obtain ⟨c, cs, hcs, hc⟩ := colonChars_head h gs
      have hrest := ih (fun g hg => hgs g (List.mem_cons_of_mem _ hg)) (by simp)
        (done ++ [g]) ell (show (h :: gs).length ≤ left by simp at hleft ⊢; omega)
      rw [hcs] at hrest
      rw [colonChars, hcs, v6Loop_group hg hc, hrest]
      simp

/-- Reading groups with colons between them, up to the gap. -/
theorem v6Loop_colons_gap (hgs : ∀ g ∈ gs, g < 65536) (hne : gs ≠ []) (rest : List Char) :
    ∀ {left : Nat} (done : List Nat), gs.length ≤ left →
      v6Loop left done none (colonChars gs ++ ':' :: ':' :: rest) =
        if rest.isEmpty then some (done ++ gs, some (done ++ gs).length)
        else v6Loop (left - gs.length) (done ++ gs) (some (done ++ gs).length) rest := by
  induction gs with
  | nil => exact absurd rfl hne
  | cons g gs ih =>
    intro left done hleft
    have hg : g < 65536 := hgs g (List.mem_cons_self ..)
    obtain ⟨left, rfl⟩ : ∃ k, left = k + 1 := ⟨left - 1, by simp at hleft; omega⟩
    cases gs with
    | nil =>
      rw [colonChars, v6Loop_gap hg]
      simp
    | cons h gs =>
      obtain ⟨c, cs, hcs, hc⟩ := colonChars_head h gs
      have hrest := ih (fun g hg => hgs g (List.mem_cons_of_mem _ hg)) (by simp)
        (done ++ [g]) (show (h :: gs).length ≤ left by simp at hleft ⊢; omega)
      rw [hcs] at hrest
      rw [colonChars, hcs, List.append_assoc, List.cons_append, List.cons_append,
        v6Loop_group hg hc, ← List.cons_append, hrest]
      simp [Nat.add_comm, Nat.add_left_comm]

theorem zeroLen_le (gs : List Nat) : zeroLen gs ≤ gs.length :=
  (List.takeWhile_prefix _).length_le

/-- The groups a run starts with are zeros. -/
theorem eq_zeros_append (gs : List Nat) :
    gs = List.replicate (zeroLen gs) 0 ++ gs.drop (zeroLen gs) := by
  induction gs with
  | nil => rfl
  | cons g gs ih =>
    by_cases hg : g = 0
    · have hlen : zeroLen (g :: gs) = zeroLen gs + 1 := by simp [zeroLen, hg]
      rw [hlen, List.replicate_succ, List.drop_succ_cons, List.cons_append, ← ih, hg]
    · have hlen : zeroLen (g :: gs) = 0 := by simp [zeroLen, hg]
      rw [hlen]
      rfl

variable {i l : Nat}

/-- The run that is folded starts inside the groups and is at least two long. -/
theorem zeroRun_ok (h : zeroRun gs = some (i, l)) :
    2 ≤ l ∧ i < gs.length ∧ l = zeroLen (gs.drop i) := by
  suffices hall : ∀ r, zeroRun gs = some r →
      2 ≤ r.2 ∧ r.1 < gs.length ∧ r.2 = zeroLen (gs.drop r.1) from hall (i, l) h
  unfold zeroRun
  refine List.foldlRecOn (List.range gs.length) _
    (motive := fun best : Option (Nat × Nat) => ∀ r, best = some r →
      2 ≤ r.2 ∧ r.1 < gs.length ∧ r.2 = zeroLen (gs.drop r.1))
    (fun r h => by cases h) ?_
  intro best hbest j hj r hr
  simp only at hr
  split at hr
  · rename_i hlong
    rw [← Option.some.inj hr]
    exact ⟨hlong.1, List.mem_range.mp hj, rfl⟩
  · exact hbest r hr

theorem zeroRun_split (h : zeroRun gs = some (i, l)) :
    gs.take i ++ List.replicate l 0 ++ gs.drop (i + l) = gs := by
  obtain ⟨-, -, hl⟩ := zeroRun_ok h
  have hzeros := eq_zeros_append (gs.drop i)
  rw [← hl, List.drop_drop] at hzeros
  rw [List.append_assoc, ← hzeros, List.take_append_drop]

theorem length_groups (n : Nat) : (groups n).length = 8 := by simp [groups]

theorem groups_lt : ∀ g ∈ groups n, g < 65536 := by
  intro g hg
  obtain ⟨i, _, rfl⟩ := List.mem_map.mp hg
  exact Nat.mod_lt _ (by decide)

/-- The number is its groups. -/
theorem groupsValue_groups (h : n < 2 ^ 128) : groupsValue (groups n) = n := by
  have hstep : ∀ k, n / 2 ^ (16 * (k + 1)) * 65536 + n / 2 ^ (16 * k) % 65536 =
      n / 2 ^ (16 * k) := by
    intro k
    have hdiv : n / 2 ^ (16 * (k + 1)) = n / 2 ^ (16 * k) / 65536 := by
      rw [Nat.div_div_eq_div_mul, show 16 * (k + 1) = 16 * k + 16 by omega, Nat.pow_add]
    rw [hdiv]
    exact Nat.div_add_mod' _ _
  have htop : n / 2 ^ (16 * 7) % 65536 = n / 2 ^ (16 * 7) :=
    Nat.mod_eq_of_lt ((Nat.div_lt_iff_lt_mul (by decide)).mpr (by simpa using h))
  have h6 := hstep 6
  have h5 := hstep 5
  have h4 := hstep 4
  have h3 := hstep 3
  have h2 := hstep 2
  have h1 := hstep 1
  have h0 := hstep 0
  show (((((((0 * 65536 + n / 2 ^ (16 * 7) % 65536) * 65536 + n / 2 ^ (16 * 6) % 65536) * 65536 +
    n / 2 ^ (16 * 5) % 65536) * 65536 + n / 2 ^ (16 * 4) % 65536) * 65536 +
    n / 2 ^ (16 * 3) % 65536) * 65536 + n / 2 ^ (16 * 2) % 65536) * 65536 +
    n / 2 ^ (16 * 1) % 65536) * 65536 + n / 2 ^ (16 * 0) % 65536 = n
  rw [htop, Nat.zero_mul, Nat.zero_add, h6, h5, h4, h3, h2, h1, h0]
  simp

/-- A text that starts with a digit is read from its first group on. -/
theorem parseGroups_of_hex {cs : List Char} (hc : isHex c = true) :
    parseGroups (c :: cs) = (v6Loop 8 [] none (c :: cs)).bind expandGroups := by
  have hcolon : c ≠ ':' := fun h => by rw [h] at hc; exact absurd hc (by decide)
  unfold parseGroups
  split
  · rename_i heq
    exact absurd (List.cons.inj heq).1 hcolon
  · rfl

/-- The gap is filled with as many zeros as were folded into it. -/
theorem expandGroups_gap (hlen : gs.length = 8) (h : zeroRun gs = some (i, l)) :
    expandGroups (gs.take i ++ gs.drop (i + l), some i) = some gs := by
  obtain ⟨hl, hi, hrun⟩ := zeroRun_ok h
  have hfit : l ≤ (gs.drop i).length := hrun ▸ zeroLen_le _
  simp only [List.length_drop, hlen] at hfit
  have htake : (gs.take i).length = i := by
    rw [List.length_take]
    omega
  have hdone : (gs.take i ++ gs.drop (i + l)).length = 8 - l := by
    simp only [List.length_append, List.length_take, List.length_drop, hlen]
    omega
  rw [expandGroups, if_pos (by omega), hdone]
  have hfirst : (gs.take i ++ gs.drop (i + l)).take i = gs.take i := by
    rw [List.take_append_of_le_length (by omega), List.take_take, Nat.min_self]
  have hrest : (gs.take i ++ gs.drop (i + l)).drop i = gs.drop (i + l) := by
    rw [List.drop_append_of_le_length (by omega), List.drop_take, Nat.sub_self, List.take_zero,
      List.nil_append]
  rw [hfirst, hrest, show 8 - (8 - l) = l by omega]
  exact congrArg some (zeroRun_split h)

/-- The text of groups with one run folded. -/
theorem parseGroups_gap (hgs : ∀ g ∈ gs, g < 65536) (hlen : gs.length = 8)
    (h : zeroRun gs = some (i, l)) :
    parseGroups (colonChars (gs.take i) ++ ':' :: ':' :: colonChars (gs.drop (i + l))) =
      some gs := by
  obtain ⟨hl, hi, hrun⟩ := zeroRun_ok h
  have hexpand := expandGroups_gap hlen h
  have hleft : ∀ g ∈ gs.take i, g < 65536 := fun g hg => hgs g (List.mem_of_mem_take hg)
  have hright : ∀ g ∈ gs.drop (i + l), g < 65536 := fun g hg => hgs g (List.mem_of_mem_drop hg)
  have hend : (gs.drop (i + l)).length ≤ 8 - (gs.take i).length := by
    simp only [List.length_drop, List.length_take, hlen]
    omega
  cases hfirst : gs.take i with
  | nil =>
    have hzero : i = 0 := by
      have := congrArg List.length hfirst
      simp only [List.length_take, hlen, List.length_nil] at this
      omega
    rw [hfirst, List.nil_append] at hexpand
    show parseGroups (':' :: ':' :: colonChars (gs.drop (i + l))) = some gs
    unfold parseGroups
    cases hd : gs.drop (i + l) with
    | nil =>
      rw [hd] at hexpand
      simpa [expandGroups, colonChars] using hexpand
    | cons g rest =>
      obtain ⟨c, cs, hcs, -⟩ := colonChars_head g rest
      have hread : v6Loop 8 [] (some 0) (colonChars (gs.drop (i + l))) =
          some (gs.drop (i + l), some 0) :=
        v6Loop_colons hright (by simp [hd]) [] _ (by omega)
      rw [hd, hcs] at hread
      rw [hd, hzero] at hexpand
      simp only [hcs, List.isEmpty_cons, Bool.false_eq_true, if_false]
      rw [hread]
      exact hexpand
  | cons g₀ more =>
    obtain ⟨c, cs, hcs, hc⟩ := colonChars_head g₀ more
    have hilen : (g₀ :: more).length = i := by
      rw [← hfirst, List.length_take]
      omega
    rw [hcs, List.cons_append, parseGroups_of_hex hc, ← List.cons_append, ← hcs,
      v6Loop_colons_gap (hfirst ▸ hleft) (by simp) _ [] (by omega), List.nil_append, hilen]
    rw [hfirst] at hexpand
    cases hd : gs.drop (i + l) with
    | nil =>
      rw [hd, List.append_nil] at hexpand
      simpa [colonChars] using hexpand
    | cons g rest =>
      obtain ⟨c', cs', hcs', -⟩ := colonChars_head g rest
      have hread : v6Loop (8 - i) (g₀ :: more) (some i) (colonChars (gs.drop (i + l))) =
          some (g₀ :: more ++ gs.drop (i + l), some i) :=
        v6Loop_colons hright (by simp [hd]) _ _ (by rw [hfirst, hilen] at hend; exact hend)
      rw [hd, hcs'] at hread
      rw [hd] at hexpand
      simp only [hcs', List.isEmpty_cons, Bool.false_eq_true, if_false]
      rw [hread]
      exact hexpand

theorem v6Text_toList (n : Nat) (h : n / 2 ^ 32 ≠ 0xffff) :
    (v6Text n).toList =
      match zeroRun (groups n) with
      | none => colonChars (groups n)
      | some (i, l) =>
        colonChars ((groups n).take i) ++ ':' :: ':' :: colonChars ((groups n).drop (i + l)) := by
  rw [v6Text, if_neg h]
  cases zeroRun (groups n) with
  | none => exact colons_toList _
  | some run => simp [colons_toList]

theorem dotted_head (n : Nat) : ∃ c cs, (dotted n).toList = c :: cs ∧ isHex c = true := by
  obtain ⟨c, cs, hcs⟩ := List.exists_cons_of_ne_nil
    (Nat.toDigits_ne_nil (n := n / 2 ^ 24 % 256) (b := 10))
  have hmem : c ∈ Nat.toDigits 10 (n / 2 ^ 24 % 256) := by
    rw [hcs]
    exact List.mem_cons_self ..
  rw [dotted_toList, hcs]
  exact ⟨c, _, rfl, isHex_toDigits (by decide) (by decide) _ c hmem⟩

/-- A dotted quad at the end of the groups. -/
theorem v6Loop_dotted {e : Nat} (hn : n < 2 ^ 32) (hdone : done.length ≤ 6) :
    v6Loop (left + 1) done (some e) (dotted n).toList =
      some (done ++ [n / 65536, n % 65536], some e) := by
  have hvalue := parseIPv4Fields_dotted hn
  have htake : (dotted n).toList.takeWhile isHex = Nat.toDigits 10 (n / 2 ^ 24 % 256) := by
    rw [dotted_toList, List.takeWhile_append_of_pos (isHex_toDigits (by decide) (by decide) _)]
    simp [show isHex '.' = false by decide]
  have hlen : (Nat.toDigits 10 (n / 2 ^ 24 % 256)).length ≤ 3 :=
    (Nat.length_toDigits_le_iff (by decide) (by decide)).mpr (by omega)
  have hdrop : ∃ rest, (dotted n).toList.drop (Nat.toDigits 10 (n / 2 ^ 24 % 256)).length =
      '.' :: rest := by
    rw [dotted_toList, List.drop_left]
    exact ⟨_, rfl⟩
  obtain ⟨rest, hrest⟩ := hdrop
  rw [v6Loop]
  simp only [htake, hrest, hvalue]
  rw [if_neg (not_or.mpr ⟨by simp [Nat.toDigits_ne_nil], by omega⟩), if_neg (by simp; omega)]
  rfl

/-- The dotted tail of an IPv4-mapped address. -/
theorem parseGroups_mapped (h : n / 2 ^ 32 = 0xffff) :
    parseGroups ("::ffff:" ++ dotted (n % 2 ^ 32)).toList = some (groups n) := by
  obtain ⟨c, cs, hcs, hc⟩ := dotted_head (n % 2 ^ 32)
  have htext : ("::ffff:" ++ dotted (n % 2 ^ 32)).toList =
      ':' :: ':' :: (Nat.toDigits 16 0xffff ++ ':' :: c :: cs) := by
    rw [String.toList_append, hcs]
    rfl
  have hread : v6Loop 8 [] (some 0) (Nat.toDigits 16 0xffff ++ ':' :: c :: cs) =
      some ([0xffff, n % 2 ^ 32 / 65536, n % 2 ^ 32 % 65536], some 0) := by
    rw [v6Loop_group (by decide) hc, ← hcs]
    exact v6Loop_dotted (Nat.mod_lt _ (by decide)) (by decide)
  have hgroups : groups n =
      [0, 0, 0, 0, 0, 0xffff, n % 2 ^ 32 / 65536, n % 2 ^ 32 % 65536] := by
    simp only [groups, List.range, List.range.loop, List.map_cons, List.map_nil]
    norm_num at h ⊢
    omega
  rw [htext, hgroups]
  show (v6Loop 8 [] (some 0) (Nat.toDigits 16 0xffff ++ ':' :: c :: cs)).bind expandGroups = _
  rw [hread]
  rfl

theorem parseGroups_v6Text (n : Nat) : parseGroups (v6Text n).toList = some (groups n) := by
  by_cases hmap : n / 2 ^ 32 = 0xffff
  · rw [v6Text, if_pos hmap]
    exact parseGroups_mapped hmap
  · rw [v6Text_toList n hmap]
    split
    · obtain ⟨g, gs, hgs⟩ := List.exists_cons_of_length_pos
        (show 0 < (groups n).length by rw [length_groups]; decide)
      obtain ⟨c, cs, hcs, hc⟩ := colonChars_head g gs
      have hread := v6Loop_colons (groups_lt (n := n)) (by simp [hgs]) [] none
        (show (groups n).length ≤ 8 by rw [length_groups])
      rw [hgs, hcs] at hread
      rw [hgs, hcs, parseGroups_of_hex hc, hread]
      simp [expandGroups, ← hgs, length_groups]
    · rename_i i l hrun
      exact parseGroups_gap groups_lt (length_groups n) hrun

/-! ## Addresses and prefixes -/

/-- The text of sixteen bytes starts with digits and a colon. -/
theorem v6Text_head (n : Nat) :
    ∃ pre rest, (v6Text n).toList = pre ++ ':' :: rest ∧ ∀ c ∈ pre, isHex c = true := by
  by_cases hmap : n / 2 ^ 32 = 0xffff
  · rw [v6Text, if_pos hmap, String.toList_append]
    exact ⟨[], _, rfl, by simp⟩
  · obtain ⟨g, h, gs, hgs⟩ : ∃ g h gs, groups n = g :: h :: gs := ⟨_, _, _, rfl⟩
    have hhex := isHex_toDigits (by decide : 1 < 16) (by decide) g
    rw [v6Text_toList n hmap]
    split
    · rw [hgs]
      exact ⟨Nat.toDigits 16 g, _, rfl, hhex⟩
    · rename_i i l hrun
      match i with
      | 0 => exact ⟨[], _, rfl, by simp⟩
      | 1 =>
        rw [hgs]
        exact ⟨Nat.toDigits 16 g, _, rfl, hhex⟩
      | i + 2 =>
        rw [hgs]
        simp only [List.take_succ_cons, colonChars, List.append_assoc, List.cons_append]
        exact ⟨Nat.toDigits 16 g, _, rfl, hhex⟩

theorem mem_dotted (h : c ∈ (dotted n).toList) : isHex c = true ∨ c = '.' := by
  have hhex : ∀ m, c ∈ Nat.toDigits 10 m → isHex c = true :=
    fun m hm => isHex_toDigits (by decide) (by decide) m c hm
  rw [dotted_toList] at h
  simp only [List.mem_append, List.mem_cons] at h
  rcases h with h | h | h | h | h | h | h
  · exact Or.inl (hhex _ h)
  · exact Or.inr h
  · exact Or.inl (hhex _ h)
  · exact Or.inr h
  · exact Or.inl (hhex _ h)
  · exact Or.inr h
  · exact Or.inl (hhex _ h)

theorem mem_colonChars (h : c ∈ colonChars gs) : isHex c = true ∨ c = ':' := by
  induction gs with
  | nil => cases h
  | cons g gs ih =>
    have hhex : c ∈ Nat.toDigits 16 g → isHex c = true :=
      fun hg => isHex_toDigits (by decide) (by decide) g c hg
    cases gs with
    | nil => exact Or.inl (hhex h)
    | cons g' gs =>
      rcases List.mem_append.mp h with h | h
      · exact Or.inl (hhex h)
      · rcases List.mem_cons.mp h with h | h
        · exact Or.inr h
        · exact ih h

/-- The characters of sixteen bytes are digits, colons and dots. -/
theorem mem_v6Text (h : c ∈ (v6Text n).toList) : isHex c = true ∨ c = ':' ∨ c = '.' := by
  have hcolon : ∀ gs, c ∈ colonChars gs → isHex c = true ∨ c = ':' ∨ c = '.' :=
    fun gs hgs => (mem_colonChars hgs).imp_right Or.inl
  by_cases hmap : n / 2 ^ 32 = 0xffff
  · rw [v6Text, if_pos hmap, String.toList_append, List.mem_append] at h
    rcases h with h | h
    · exact (by decide : ∀ c ∈ "::ffff:".toList, isHex c = true ∨ c = ':' ∨ c = '.') c h
    · exact (mem_dotted h).imp_right Or.inr
  · rw [v6Text_toList n hmap] at h
    split at h
    · exact hcolon _ h
    · simp only [List.mem_append, List.mem_cons] at h
      rcases h with h | h | h | h
      · exact hcolon _ h
      · exact Or.inr (Or.inl h)
      · exact Or.inr (Or.inl h)
      · exact hcolon _ h

theorem find_special {pre rest : List Char} (hpre : ∀ c ∈ pre, isHex c = true)
    (hc : c ∈ ['.', ':', '%']) : (pre ++ c :: rest).find? (· ∈ ['.', ':', '%']) = some c := by
  rw [List.find?_append, List.find?_eq_none.mpr, Option.none_or, List.find?_cons_of_pos]
  · simpa using hc
  · intro d hd hspecial
    have hhex := hpre d hd
    simp only [decide_eq_true_eq, List.mem_cons, List.not_mem_nil, or_false] at hspecial
    rcases hspecial with rfl | rfl | rfl <;> exact absurd hhex (by decide)

/-- **Reading an address from its text** gives the address back, zone included. -/
theorem parseAddr_text {a : Addr} (h : a.isValid = true) : parseAddr a.text = some a := by
  cases a with
  | invalid => cases h
  | v4 b =>
    have hdot : (dotted b.toNat).toList.find? (· ∈ ['.', ':', '%']) = some '.' := by
      rw [dotted_toList]
      exact find_special (isHex_toDigits (by decide) (by decide) _) (by decide)
    rw [parseAddr, parseAddrChars, Addr.text, hdot]
    simp [parseIPv4Fields_dotted b.isLt]
  | v6 b z =>
    obtain ⟨pre, rest, htext, hpre⟩ := v6Text_head b.toNat
    have hzone : '%' ∉ (v6Text b.toNat).toList := by
      intro hmem
      rcases mem_v6Text hmem with hbad | hbad | hbad <;> exact absurd hbad (by decide)
    have hvalue : BitVec.ofNat 128 (groupsValue (groups b.toNat)) = b := by
      rw [groupsValue_groups b.isLt]
      simp
    have hfind : (Addr.v6 b z).text.toList.find? (· ∈ ['.', ':', '%']) = some ':' := by
      rw [Addr.text, String.toList_append, htext, List.append_assoc, List.cons_append]
      exact find_special hpre (by decide)
    rw [parseAddr, parseAddrChars, hfind]
    show parseIPv6 _ = _
    by_cases hz : z = ""
    · have htoList : (Addr.v6 b z).text.toList = (v6Text b.toNat).toList := by
        simp [Addr.text, hz]
      rw [htoList, parseIPv6, Text.cutChars_of_notMem hzone]
      simp [parseGroups_v6Text, hvalue, hz]
    · have htoList : (Addr.v6 b z).text.toList = (v6Text b.toNat).toList ++ '%' :: z.toList := by
        simp [Addr.text, hz]
      have hne : z.toList ≠ [] := by simpa using hz
      obtain ⟨d, ds, hds⟩ := List.exists_cons_of_ne_nil hne
      rw [htoList, parseIPv6, Text.cutChars_append _ _ _ hzone, hds]
      simp [parseGroups_v6Text, hvalue, ← hds]

example : parseAddr "2001:db8::1" =
    some (.v6 0x20010db8000000000000000000000001#128 "") := by decide
example : parseAddr "::ffff:10.0.0.1" = some (.v6 0xffff0a000001#128 "") := by
  decide

/-- A prefix is the one its address and its length make. -/
theorem Prefix.ofAddr_addr {p : Prefix} (h : p.bits = some n) : Prefix.ofAddr p.addr n = p := by
  obtain ⟨hvalid, hzone, hn⟩ := p.wf n h
  obtain ⟨addr, bits, wf⟩ := p
  simp only at h hvalid hzone hn
  subst h
  rw [Prefix.ofAddr, dif_pos ⟨hvalid, by omega, by exact_mod_cast hn⟩]
  simp [Addr.withoutZone_eq hzone]

/-- Splitting at the last slash when nothing behind it is one. -/
theorem cutLast_append {ip bits : List Char} (h : '/' ∉ bits) :
    cutLast (ip ++ '/' :: bits) = some (ip, bits) := by
  have hrev : (ip ++ '/' :: bits).reverse = bits.reverse ++ '/' :: ip.reverse := by simp
  rw [cutLast, hrev, Text.cutChars_append _ _ _ (by simpa using h)]
  simp

/-- **Reading a prefix from its text** gives the prefix back. -/
theorem parsePrefix_text {p : Prefix} (h : p.isValid = true) : parsePrefix p.text = some p := by
  obtain ⟨n, hn⟩ := Option.isSome_iff_exists.mp h
  obtain ⟨hvalid, hzone, hle⟩ := p.wf n hn
  have htext : p.text.toList = p.addr.text.toList ++ '/' :: Nat.toDigits 10 n := by
    simp [Prefix.text, hn, itoa]
  have hslash : '/' ∉ Nat.toDigits 10 n := notMem_toDigits (by decide) (by decide) (by decide) n
  have haddr : parseAddrChars p.addr.text.toList = some p.addr := parseAddr_text hvalid
  rw [parsePrefix, htext, cutLast_append hslash]
  simp only [haddr, parseBits_toDigits]
  rw [if_pos ⟨hzone, hle⟩, Prefix.ofAddr_addr hn]

example : (parsePrefix "10.83.51.0/24").map Prefix.text = some "10.83.51.0/24" := by
  decide

end Caspian.Netip
