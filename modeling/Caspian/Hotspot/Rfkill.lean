import Caspian.Netcfg.IwDev
import Caspian.Netip.RoundTrip

/-!
# The wireless switches

The kernel keeps a soft and a hard block for every radio, and `rfkill list`
prints them.  `parseRfkillList` reads that listing a line at a time; a line it
does not recognise is passed over.  `Radios` is what the machine really has,
with the distinct indices the kernel gives out and names that can be printed,
and `parseRfkillList_listing` says that reading the listing of a machine gives
its radios back.
-/

namespace Caspian.Hotspot

open Verified Netip
open Netcfg (atoi)

/-- `RfkillDevice`. -/
structure RfkillDevice where
  index : Int
  name : String
  type : String
  softBlocked : Bool := false
  hardBlocked : Bool := false
  deriving DecidableEq, Repr

/-! ## The parser -/

/-- `parseRfkillHeader`: a number, a name and a type with colons between. -/
def parseRfkillHeader (line : List Char) : Option RfkillDevice := do
  let (first, rest) ← Text.cutChars ':' line
  let idx ← atoi (Text.trimChars first)
  let (name, typ) ← Text.cutChars ':' (Text.trimChars rest)
  return { index := idx, name := String.ofList (Text.trimChars name),
           type := String.ofList (Text.trimChars typ) }

/-- A field below a header. -/
def rfkillField (cur : RfkillDevice) (line : List Char) : RfkillDevice :=
  match Text.cutChars ':' line with
  | none => cur
  | some (key, val) =>
    let on := Text.equalFold (String.ofList (Text.trimChars val)) "yes"
    let key := Text.toLower (String.ofList (Text.trimChars key))
    if key = "soft blocked" then { cur with softBlocked := on }
    else if key = "hard blocked" then { cur with hardBlocked := on }
    else cur

/-- One line of the listing; the device being read stands first. -/
def rfkillLine (devs : List RfkillDevice) (raw : List Char) : List RfkillDevice :=
  let line := Text.trimChars raw
  if line = [] then devs
  else
    match parseRfkillHeader line, devs with
    | some d, devs => d :: devs
    | none, [] => []
    | none, cur :: rest => rfkillField cur line :: rest

/-- `parseRfkillList`. -/
def parseRfkillList (out : String) : List RfkillDevice :=
  ((Text.splitChars '\n' out.toList).foldl rfkillLine []).reverse

/-- The test of `wirelessDevices`. -/
def RfkillDevice.wireless (d : RfkillDevice) : Bool :=
  Text.contains (Text.toLower d.type) "wlan" || Text.contains (Text.toLower d.type) "wireless"

/-- `wirelessDevices`. -/
def wirelessDevices (devs : List RfkillDevice) : List RfkillDevice :=
  devs.filter RfkillDevice.wireless

/-! ## What the supervisor makes of it -/

/-- `RadioState`. -/
structure RadioState where
  present : Bool := false
  softBlocked : Bool := false
  hardBlocked : Bool := false
  unblocked : Bool := false
  detail : String := ""
  deriving DecidableEq

/-- `radioStateFrom`. -/
def radioStateFrom (devs : List RfkillDevice) (unblockedByUs : Bool) : RadioState :=
  let soft := devs.any (·.softBlocked)
  let hard := devs.any (·.hardBlocked)
  { present := !devs.isEmpty
    softBlocked := soft
    hardBlocked := hard
    unblocked := unblockedByUs
    detail :=
      if devs.isEmpty then "This machine reports no wireless adapter."
      else if hard then
        "The wireless adapter is switched off by a switch on the machine itself, " ++
          "which Caspian cannot change. Turn the wireless switch on and try again."
      else if soft then
        "The wireless adapter is switched off in software and Caspian could not switch it back on."
      else if unblockedByUs then
        "The wireless adapter was switched off. Caspian switched it back on."
      else "" }

/-! ## The machine's radios -/

/-- A text the listing prints and the parser gives back: not empty, one line,
and without white space at its ends. -/
def printable (s : String) : Bool :=
  s ≠ "" && '\n' ∉ s.toList && Text.trimChars s.toList = s.toList

/-- A device as the kernel names one. -/
def RfkillDevice.listed (d : RfkillDevice) : Bool :=
  0 ≤ d.index && d.index < 2 ^ 63 && printable d.name && ':' ∉ d.name.toList && printable d.type

/-- The radios of a machine. -/
structure Radios where
  list : List RfkillDevice
  listed : ∀ d ∈ list, d.listed = true
  distinct : (list.map RfkillDevice.index).Nodup
  deriving DecidableEq

/-- Set the soft block of the devices a test picks. -/
def setSoft (pick : RfkillDevice → Bool) (on : Bool) (d : RfkillDevice) : RfkillDevice :=
  if pick d then { d with softBlocked := on } else d

@[simp] theorem setSoft_index (pick : RfkillDevice → Bool) (on : Bool) (d : RfkillDevice) :
    (setSoft pick on d).index = d.index := by
  unfold setSoft
  split <;> rfl

@[simp] theorem setSoft_wireless (pick : RfkillDevice → Bool) (on : Bool) (d : RfkillDevice) :
    (setSoft pick on d).wireless = d.wireless := by
  unfold setSoft
  split <;> rfl

@[simp] theorem setSoft_listed (pick : RfkillDevice → Bool) (on : Bool) (d : RfkillDevice) :
    (setSoft pick on d).listed = d.listed := by
  unfold setSoft
  split <;> rfl

def Radios.setSoft (r : Radios) (pick : RfkillDevice → Bool) (on : Bool) : Radios where
  list := r.list.map (Hotspot.setSoft pick on)
  listed := by
    intro d hd
    obtain ⟨e, he, rfl⟩ := List.mem_map.mp hd
    rw [setSoft_listed]
    exact r.listed e he
  distinct := by
    rw [List.map_map]
    have hsame : RfkillDevice.index ∘ Hotspot.setSoft pick on = RfkillDevice.index :=
      funext fun d => setSoft_index pick on d
    rw [hsame]
    exact r.distinct

/-! ## The listing -/

def yesNo (b : Bool) : String := if b then "yes" else "no"

def fieldLine (key : String) (on : Bool) : String := "\t" ++ key ++ ": " ++ yesNo on

/-- The three lines of a device. -/
def RfkillDevice.lines (d : RfkillDevice) : List String :=
  [itoa d.index.toNat ++ ": " ++ d.name ++ ": " ++ d.type,
    fieldLine "Soft blocked" d.softBlocked,
    fieldLine "Hard blocked" d.hardBlocked]

/-- What `rfkill list` prints. -/
def Radios.listing (r : Radios) : String :=
  Text.unlines (r.list.flatMap RfkillDevice.lines)

/-! ## Reading the listing back -/

theorem printable_iff {s : String} : printable s = true ↔
    s.toList ≠ [] ∧ '\n' ∉ s.toList ∧ Text.trimChars s.toList = s.toList := by
  simp [printable, and_assoc]

theorem atoi_toDigits {n : Nat} (h : n < 2 ^ 63) : atoi (Nat.toDigits 10 n) = some (n : Int) := by
  have hdec := isDec_toDigits n
  have hread : readDigits 10 (Nat.toDigits 10 n) = n :=
    readDigits_toDigits (by decide) (by decide) n
  have hne : Nat.toDigits 10 n ≠ [] := Nat.toDigits_ne_nil
  unfold atoi
  split
  rename_i neg digits hsplit
  have hplain : neg = false ∧ digits = Nat.toDigits 10 n := by
    split at hsplit
    · rename_i ds hds
      exact absurd (hdec '-' (by rw [hds]; exact List.mem_cons_self)) (by decide)
    · rename_i ds hds
      exact absurd (hdec '+' (by rw [hds]; exact List.mem_cons_self)) (by decide)
    · cases hsplit
      exact ⟨rfl, rfl⟩
  obtain ⟨rfl, rfl⟩ := hplain
  have hall : (Nat.toDigits 10 n).all isDec = true := List.all_eq_true.mpr hdec
  rw [if_neg (by rw [hall]; simp [hne]), hread]
  simp only [Bool.false_eq_true, if_false]
  rw [if_pos (by omega)]

variable {c : Char}

theorem trimChars_cons_space (hc : Text.isSpace c = true) (cs : List Char) :
    Text.trimChars (c :: cs) = Text.trimChars cs := by
  rw [Text.trimChars, Text.trimChars, List.dropWhile_cons, if_pos hc]

theorem trimChars_append_space (hc : Text.isSpace c = true) (cs : List Char) :
    Text.trimChars (cs ++ [c]) = Text.trimChars cs := by
  unfold Text.trimChars
  cases hfront : cs.dropWhile Text.isSpace with
  | nil | cons d ds => simp [List.dropWhile_append, hfront, hc]

theorem head_of_dropWhile_eq {cs : List Char} (h : cs.dropWhile Text.isSpace = cs) :
    ∀ c ∈ cs.head?, Text.isSpace c = false := by
  intro c hc
  have hnot := List.head?_dropWhile_not Text.isSpace cs
  rw [h] at hnot
  cases cs with
  | nil => cases hc
  | cons d ds =>
    cases hc
    exact hnot

/-- A trimmed text has no white space at its ends. -/
theorem ends_of_trimmed {cs : List Char} (h : Text.trimChars cs = cs) :
    (∀ c ∈ cs.head?, Text.isSpace c = false) ∧ ∀ c ∈ cs.getLast?, Text.isSpace c = false := by
  have hfront : cs.dropWhile Text.isSpace = cs := by
    apply (List.dropWhile_suffix Text.isSpace).eq_of_length
    have hlen := congrArg List.length h
    have hback := (List.dropWhile_suffix (l := (cs.dropWhile Text.isSpace).reverse)
      Text.isSpace).length_le
    have hle := (List.dropWhile_suffix (l := cs) Text.isSpace).length_le
    simp only [Text.trimChars, List.length_reverse] at hlen hback
    omega
  have hback : cs.reverse.dropWhile Text.isSpace = cs.reverse := by
    rw [Text.trimChars, hfront] at h
    rw [← List.reverse_reverse (cs.reverse.dropWhile Text.isSpace), h]
  refine ⟨head_of_dropWhile_eq hfront, ?_⟩
  have hlast := head_of_dropWhile_eq hback
  rw [List.head?_reverse] at hlast
  exact hlast

/-- Text with something printable at its end keeps that end. -/
theorem trimChars_append_printable {pre : List Char} {s : String} (hs : printable s = true)
    (hhead : ∀ c ∈ (pre ++ s.toList).head?, Text.isSpace c = false) :
    Text.trimChars (pre ++ s.toList) = pre ++ s.toList := by
  obtain ⟨hne, -, htrim⟩ := printable_iff.mp hs
  apply Text.trimChars_eq_self hhead
  rw [List.getLast?_append_of_ne_nil _ hne]
  exact (ends_of_trimmed htrim).2

theorem isSpace_of_mem_toDigits {n : Nat} (h : c ∈ Nat.toDigits 10 n) : Text.isSpace c = false := by
  have hdigit : c ∈ Text.decimalDigits :=
    Text.mem_decimalDigits (Nat.isDigit_of_mem_toDigits (by decide) (by decide) h)
  exact (by decide : ∀ c ∈ Text.decimalDigits, Text.isSpace c = false) c hdigit

variable {d : RfkillDevice}

theorem parseRfkillHeader_line (h : d.listed = true) :
    Text.trimChars (itoa d.index.toNat ++ ": " ++ d.name ++ ": " ++ d.type).toList ≠ [] ∧
    parseRfkillHeader (Text.trimChars
      (itoa d.index.toNat ++ ": " ++ d.name ++ ": " ++ d.type).toList) =
        some { index := d.index, name := d.name, type := d.type } := by
  simp only [RfkillDevice.listed, Bool.and_eq_true, decide_eq_true_eq] at h
  obtain ⟨⟨⟨⟨hlo, hhi⟩, hname⟩, hcolon⟩, htype⟩ := h
  obtain ⟨hnameNe, -, hnameTrim⟩ := printable_iff.mp hname
  obtain ⟨htypeNe, -, htypeTrim⟩ := printable_iff.mp htype
  have hnotDigit : ∀ c ∈ Nat.toDigits 10 d.index.toNat, Text.isSpace c = false :=
    fun c hc => isSpace_of_mem_toDigits hc
  have hdigits : Nat.toDigits 10 d.index.toNat ≠ [] := Nat.toDigits_ne_nil
  have hchars : (itoa d.index.toNat ++ ": " ++ d.name ++ ": " ++ d.type).toList =
      Nat.toDigits 10 d.index.toNat ++ ':' :: (' ' :: (d.name.toList ++ ':' :: (' ' ::
        d.type.toList))) := by
    simp [itoa]
  have hline : Text.trimChars (itoa d.index.toNat ++ ": " ++ d.name ++ ": " ++ d.type).toList =
      Nat.toDigits 10 d.index.toNat ++ ':' :: (' ' :: (d.name.toList ++ ':' :: (' ' ::
        d.type.toList))) := by
    rw [String.toList_append, trimChars_append_printable htype]
    · rw [← String.toList_append, hchars]
    · intro c hc
      rw [← String.toList_append, hchars, List.head?_append_of_ne_nil _ hdigits] at hc
      exact hnotDigit c (List.mem_of_head? hc)
  have hcolonDigit : ':' ∉ Nat.toDigits 10 d.index.toNat :=
    notMem_toDigits (by decide) (by decide) (by decide) _
  have hrest : Text.trimChars (' ' :: (d.name.toList ++ ':' :: (' ' :: d.type.toList))) =
      d.name.toList ++ ':' :: (' ' :: d.type.toList) := by
    rw [trimChars_cons_space (by decide)]
    have happ : d.name.toList ++ ':' :: (' ' :: d.type.toList) =
        (d.name.toList ++ [':', ' ']) ++ d.type.toList := by simp
    rw [happ]
    apply trimChars_append_printable htype
    intro c hc
    rw [List.append_assoc, List.head?_append_of_ne_nil _ hnameNe] at hc
    exact (ends_of_trimmed hnameTrim).1 c hc
  have htypeBack : Text.trimChars (' ' :: d.type.toList) = d.type.toList := by
    rw [trimChars_cons_space (by decide), htypeTrim]
  have hindex : atoi (Text.trimChars (Nat.toDigits 10 d.index.toNat)) = some d.index := by
    rw [Text.trimChars_eq_self (fun c hc => hnotDigit c (List.mem_of_head? hc))
      (fun c hc => hnotDigit c (List.mem_of_getLast? hc)), atoi_toDigits (by omega),
      Int.toNat_of_nonneg hlo]
  rw [hline]
  constructor
  · simp
  · simp only [parseRfkillHeader, Text.cutChars_append ':' _ _ hcolonDigit, Option.bind_eq_bind,
      Option.bind_some, hindex, hrest, Text.cutChars_append ':' _ _ hcolon, hnameTrim, htypeBack,
      String.ofList_toList]
    rfl

/-- A line that is no header sets a field of the device above it. -/
theorem rfkillLine_field {raw key val : List Char} (hline : Text.trimChars raw ≠ [])
    (hheader : parseRfkillHeader (Text.trimChars raw) = none)
    (hcut : Text.cutChars ':' (Text.trimChars raw) = some (key, val)) (cur : RfkillDevice)
    (rest : List RfkillDevice) :
    rfkillLine (cur :: rest) raw =
      (if Text.toLower (String.ofList (Text.trimChars key)) = "soft blocked" then
        { cur with softBlocked := Text.equalFold (String.ofList (Text.trimChars val)) "yes" }
      else if Text.toLower (String.ofList (Text.trimChars key)) = "hard blocked" then
        { cur with hardBlocked := Text.equalFold (String.ofList (Text.trimChars val)) "yes" }
      else cur) :: rest := by
  unfold rfkillLine
  simp only [if_neg hline, hheader, rfkillField, hcut]

/-- What the parser finds on the two lines below a header. -/
theorem fieldLine_read (on : Bool) : ∀ key ∈ ["Soft blocked", "Hard blocked"],
    Text.trimChars (fieldLine key on).toList ≠ [] ∧
    parseRfkillHeader (Text.trimChars (fieldLine key on).toList) = none ∧
    Text.cutChars ':' (Text.trimChars (fieldLine key on).toList) =
      some (key.toList, ' ' :: (yesNo on).toList) ∧
    Text.equalFold (String.ofList (Text.trimChars (' ' :: (yesNo on).toList))) "yes" = on := by
  cases on <;> decide

theorem rfkillLine_soft (on : Bool) (cur : RfkillDevice) (rest : List RfkillDevice) :
    rfkillLine (cur :: rest) (fieldLine "Soft blocked" on).toList =
      { cur with softBlocked := on } :: rest := by
  obtain ⟨hline, hheader, hcut, hon⟩ := fieldLine_read on "Soft blocked" (by decide)
  have hkey : Text.toLower (String.ofList (Text.trimChars "Soft blocked".toList)) =
      "soft blocked" := by
    decide
  rw [rfkillLine_field hline hheader hcut, if_pos hkey, hon]

theorem rfkillLine_hard (on : Bool) (cur : RfkillDevice) (rest : List RfkillDevice) :
    rfkillLine (cur :: rest) (fieldLine "Hard blocked" on).toList =
      { cur with hardBlocked := on } :: rest := by
  obtain ⟨hline, hheader, hcut, hon⟩ := fieldLine_read on "Hard blocked" (by decide)
  have hkey : Text.toLower (String.ofList (Text.trimChars "Hard blocked".toList)) =
      "hard blocked" := by
    decide
  rw [rfkillLine_field hline hheader hcut, if_neg (by rw [hkey]; decide), if_pos hkey, hon]

theorem foldl_rfkillLine_lines (h : d.listed = true) (devs : List RfkillDevice) :
    (d.lines.map String.toList).foldl rfkillLine devs = d :: devs := by
  obtain ⟨hne, hheader⟩ := parseRfkillHeader_line h
  have hfirst : rfkillLine devs
      (itoa d.index.toNat ++ ": " ++ d.name ++ ": " ++ d.type).toList =
        { index := d.index, name := d.name, type := d.type } :: devs := by
    unfold rfkillLine
    simp only [if_neg hne, hheader]
  rw [RfkillDevice.lines, List.map_cons, List.map_cons, List.map_singleton, List.foldl_cons,
    List.foldl_cons, List.foldl_cons, List.foldl_nil, hfirst, rfkillLine_soft, rfkillLine_hard]

theorem foldl_rfkillLine_listing {ds : List RfkillDevice} (h : ∀ d ∈ ds, d.listed = true)
    (devs : List RfkillDevice) :
    ((ds.flatMap RfkillDevice.lines).map String.toList).foldl rfkillLine devs =
      ds.reverse ++ devs := by
  induction ds generalizing devs with
  | nil => rfl
  | cons d ds ih =>
    have hd : d.listed = true := h d List.mem_cons_self
    have hds : ∀ e ∈ ds, e.listed = true := fun e he => h e (List.mem_cons_of_mem _ he)
    rw [List.flatMap_cons, List.map_append, List.foldl_append, foldl_rfkillLine_lines hd,
      ih hds, List.reverse_cons, List.append_assoc, List.singleton_append]

theorem line_feed_notMem_lines (h : d.listed = true) : ∀ l ∈ d.lines, '\n' ∉ l.toList := by
  simp only [RfkillDevice.listed, Bool.and_eq_true, decide_eq_true_eq] at h
  obtain ⟨⟨⟨-, hname⟩, -⟩, htype⟩ := h
  obtain ⟨-, hname, -⟩ := printable_iff.mp hname
  obtain ⟨-, htype, -⟩ := printable_iff.mp htype
  have hindex : '\n' ∉ Nat.toDigits 10 d.index.toNat :=
    notMem_toDigits (by decide) (by decide) (by decide) _
  have hyes : ∀ b, '\n' ∉ (yesNo b).toList := by decide
  simp [RfkillDevice.lines, fieldLine, itoa, hindex, hname, htype, hyes]

/-- **Reading the listing of a machine** gives its radios back. -/
theorem parseRfkillList_listing (r : Radios) : parseRfkillList r.listing = r.list := by
  have hfree : ∀ l ∈ (r.list.flatMap RfkillDevice.lines).map String.toList, '\n' ∉ l := by
    intro l hl
    obtain ⟨s, hs, rfl⟩ := List.mem_map.mp hl
    obtain ⟨d, hd, hs⟩ := List.mem_flatMap.mp hs
    exact line_feed_notMem_lines (r.listed d hd) s hs
  have hchars : r.listing.toList =
      ((r.list.flatMap RfkillDevice.lines).map String.toList).flatMap (· ++ ['\n']) := by
    simp [Radios.listing, Text.unlines, String.toList_join, List.flatMap_map]
  rw [parseRfkillList, hchars, Text.splitChars_flatMap hfree, List.foldl_append,
    foldl_rfkillLine_listing r.listed]
  show (rfkillLine (r.list.reverse ++ []) []).reverse = r.list
  rw [List.append_nil]
  show r.list.reverse.reverse = r.list
  rw [List.reverse_reverse]

end Caspian.Hotspot
