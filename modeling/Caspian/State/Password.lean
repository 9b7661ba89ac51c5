import Caspian.Netcfg.IwDev
import Caspian.Netip.RoundTrip
import Caspian.State.Store
import Caspian.Verified.Outcome

/-!
# The stored password

The panel's password is stored as a text that holds the cost of its hash beside
the salt and the key.  `decodeHash` reads such a text from whatever the state
file holds.  What was written is read back as it was, and no text makes a
verification cheaper or dearer than the accepted ranges (`hash_costs`).

The text is read by its characters.  No character but `$` has the byte of `$` in
it, and the same is true of the other marks the format uses.
-/

namespace Caspian.Persist

open Verified Netip
open Netcfg (atoi)

/-- `hashParams`. -/
structure HashParams where
  time : UInt32
  memory : UInt32
  threads : UInt8
  salt : Bytes
  key : Bytes
  deriving DecidableEq

def maxArgonMemory : Nat := 1024 * 1024
def maxArgonTime : Nat := 16
def maxArgonThreads : Nat := 16
def maxArgonKeyLen : Nat := 64
def maxArgonSaltLen : Nat := 64

def digits (n : Nat) : List Char := (itoa n).toList

/-- The part of the text that says what the hash costs. -/
def HashParams.costs (p : HashParams) : List Char :=
  'm' :: '=' :: digits p.memory.toNat ++ ',' :: ('t' :: '=' :: digits p.time.toNat ++
    ',' :: 'p' :: '=' :: digits p.threads.toNat)

/-- `encodeHash`. -/
def HashParams.encode (p : HashParams) : Bytes :=
  Utf8.encode ("$argon2id$v=19$".toList ++ p.costs ++ '$' :: base64 p.salt ++ '$' :: base64 p.key)

/-- What `decodeHash` fails with, and what its message names. -/
inductive HashError where
  | notPHC
  | algorithm (name : List Char)
  | versionField (field : List Char)
  | version (n : Int)
  | parameterField (field : List Char)
  | expected (key : Char) (field : List Char)
  | value (key : Char) (value : List Char)
  | memory (n : Nat)
  | passes (n : Nat)
  | lanes (n : Nat)
  | salt
  | digest
  | saltLength (n : Nat)
  | digestLength (n : Nat)
  deriving DecidableEq

/-- `fmt.Sscanf` with the format `v=%d`: white space and a sign may come before the
digits, and anything after them. -/
def scanVersion : List Char → Option Int
  | 'v' :: '=' :: rest =>
    let number := rest.dropWhile Text.isSpace
    let sign := (number.take 1).filter (· ∈ ['+', '-'])
    if '\n' ∈ rest.takeWhile Text.isSpace then none
    else atoi (sign ++ (number.drop sign.length).takeWhile isDec)
  | _ => none

/-- `strconv.ParseUint` in base ten for 32 bits. -/
def parseUint32 (cs : List Char) : Option Nat :=
  if cs ≠ [] ∧ cs.all isDec ∧ readDigits 10 cs < 2 ^ 32 then some (readDigits 10 cs) else none

/-- `parseKV`. -/
def parseKV (field : List Char) (key : Char) : Except HashError Nat :=
  match Text.cutChars '=' field with
  | none => .error (.expected key field)
  | some (name, value) =>
    if name ≠ [key] then .error (.expected key field)
    else
      match parseUint32 value with
      | none => .error (.value key value)
      | some n => .ok n

def base64Value (c : Char) : Option Nat :=
  (List.range 64).find? fun n => base64Char n = c

/-- The bytes of a list of values of six bits; bits that are left over are zero. -/
def unbase64 : List Nat → Option Bytes
  | a :: b :: c :: d :: rest =>
    (unbase64 rest).map fun bytes =>
      UInt8.ofNat (a * 4 + b / 16) :: UInt8.ofNat (b * 16 + c / 4) ::
        UInt8.ofNat (c * 64 + d) :: bytes
  | [a, b, c] =>
    if c % 4 = 0 then some [UInt8.ofNat (a * 4 + b / 16), UInt8.ofNat (b * 16 + c / 4)] else none
  | [a, b] => if b % 16 = 0 then some [UInt8.ofNat (a * 4 + b / 16)] else none
  | [_] => none
  | [] => some []

/-- `DecodeString` of `base64.RawStdEncoding.Strict()`, which skips line breaks. -/
def decodeString (cs : List Char) : Option Bytes :=
  ((cs.filter fun c => c ≠ '\n' ∧ c ≠ '\r').mapM base64Value).bind unbase64

def orError {α : Type} (e : HashError) : Option α → Except HashError α
  | none => .error e
  | some a => .ok a

/-- The number is one of the first `max`. -/
def checkRange (n max : Nat) (e : Nat → HashError) : Except HashError Unit :=
  if n = 0 ∨ max < n then .error (e n) else .ok ()

def checkVersion (field : List Char) : Except HashError Unit := do
  let n ← orError (.versionField field) (scanVersion field)
  if n ≠ 19 then .error (.version n) else .ok ()

/-- The memory, the passes and the lanes. -/
def parseCosts (field : List Char) : Except HashError (Nat × Nat × Nat) :=
  match Text.splitChars ',' field with
  | [m, t, p] => do
      let memory ← parseKV m 'm'
      let time ← parseKV t 't'
      let threads ← parseKV p 'p'
      return (memory, time, threads)
  | _ => .error (.parameterField field)

/-- `decodeHash`. -/
def decodeHash (stored : Bytes) : Except HashError HashParams :=
  match Text.splitChars '$' (Utf8.lossy stored) with
  | [[], algorithm, version, costs, salt, key] =>
    if algorithm ≠ "argon2id".toList then .error (.algorithm algorithm)
    else do
      checkVersion version
      let (memory, time, threads) ← parseCosts costs
      checkRange memory maxArgonMemory .memory
      checkRange time maxArgonTime .passes
      checkRange threads maxArgonThreads .lanes
      let salt ← orError .salt (decodeString salt)
      let key ← orError .digest (decodeString key)
      checkRange salt.length maxArgonSaltLen .saltLength
      checkRange key.length maxArgonKeyLen .digestLength
      return ⟨UInt32.ofNat time, UInt32.ofNat memory, UInt8.ofNat threads, salt, key⟩
  | _ => .error .notPHC

/-- `argon2.IDKey`: the text, the salt, the passes, the memory, the lanes and the
length of the key. -/
abbrev IDKey := Bytes → Bytes → UInt32 → UInt32 → UInt8 → UInt32 → Bytes

/-- The key of a text at the cost of a hash. -/
def HashParams.derive (p : HashParams) (idKey : IDKey) (plaintext : Bytes) : Bytes :=
  idKey plaintext p.salt p.time p.memory p.threads (UInt32.ofNat p.key.length)

/-- `verifyPassword`. -/
def verifyPassword (idKey : IDKey) (stored plaintext : Bytes) : Except HashError Bool := do
  let p ← decodeHash stored
  return p.derive idKey plaintext = p.key

/-- The parameters `decodeHash` lets pass. -/
structure HashParams.InRange (p : HashParams) : Prop where
  memory : 1 ≤ p.memory.toNat ∧ p.memory.toNat ≤ maxArgonMemory
  time : 1 ≤ p.time.toNat ∧ p.time.toNat ≤ maxArgonTime
  threads : 1 ≤ p.threads.toNat ∧ p.threads.toNat ≤ maxArgonThreads
  salt : 1 ≤ p.salt.length ∧ p.salt.length ≤ maxArgonSaltLen
  key : 1 ≤ p.key.length ∧ p.key.length ≤ maxArgonKeyLen

theorem checkRange_ok {n max : Nat} {e : Nat → HashError} :
    checkRange n max e = .ok () ↔ 1 ≤ n ∧ n ≤ max := by
  unfold checkRange
  split <;> simp <;> omega

/-! ## Reading back -/

theorem base64Value_char : ∀ n < 64, base64Value (base64Char n) = some n := by decide +kernel

theorem base64Char_plain :
    ∀ n < 64, base64Char n ≠ '\n' ∧ base64Char n ≠ '\r' ∧ base64Char n ≠ '$' := by decide +kernel

/-- The values of six bits a text of bytes is written as. -/
def sextets : Bytes → List Nat
  | a :: b :: c :: rest =>
    a.toNat / 4 :: (a.toNat % 4 * 16 + b.toNat / 16) :: (b.toNat % 16 * 4 + c.toNat / 64) ::
      c.toNat % 64 :: sextets rest
  | [a, b] => [a.toNat / 4, a.toNat % 4 * 16 + b.toNat / 16, b.toNat % 16 * 4]
  | [a] => [a.toNat / 4, a.toNat % 4 * 16]
  | [] => []

theorem base64_eq (bytes : Bytes) : base64 bytes = (sextets bytes).map base64Char := by
  fun_induction sextets bytes <;> simp_all [base64]

theorem sextets_lt (bytes : Bytes) : ∀ n ∈ sextets bytes, n < 64 := by
  have hlt : ∀ b : UInt8, b.toNat < 256 := fun b => b.toNat_lt
  fun_induction sextets bytes with
  | case1 a b c rest ih =>
    have := hlt a; have := hlt b; have := hlt c
    simp only [List.mem_cons]
    rintro n (rfl | rfl | rfl | rfl | hn)
    · omega
    · omega
    · omega
    · omega
    · exact ih n hn
  | case2 a b =>
    have := hlt a; have := hlt b
    simp
    omega
  | case3 a =>
    have := hlt a
    simp
    omega
  | case4 => simp

theorem unbase64_sextets (bytes : Bytes) : unbase64 (sextets bytes) = some bytes := by
  have hbyte : ∀ (b : UInt8) (n : Nat), n % 256 = b.toNat → UInt8.ofNat n = b := by
    intro b n h
    rw [← UInt8.toNat_inj, UInt8.toNat_ofNat']
    exact h
  have hlt : ∀ b : UInt8, b.toNat < 256 := fun b => b.toNat_lt
  fun_induction sextets bytes with
  | case1 a b c rest ih =>
    have := hlt a; have := hlt b; have := hlt c
    rw [unbase64, ih, Option.map_some]
    congr 2
    · exact hbyte _ _ (by omega)
    · congr 1
      · exact hbyte _ _ (by omega)
      · congr 1
        exact hbyte _ _ (by omega)
  | case2 a b =>
    have := hlt a; have := hlt b
    rw [unbase64, if_pos (by omega), hbyte a _ (by omega), hbyte b _ (by omega)]
  | case3 a =>
    have := hlt a
    rw [unbase64, if_pos (by omega), hbyte a _ (by omega)]
  | case4 => rfl

theorem decodeString_base64 (bytes : Bytes) : decodeString (base64 bytes) = some bytes := by
  have hplain : (base64 bytes).filter (fun c => c ≠ '\n' ∧ c ≠ '\r') = base64 bytes := by
    rw [List.filter_eq_self, base64_eq]
    intro c hc
    obtain ⟨n, hn, rfl⟩ := List.mem_map.mp hc
    have := base64Char_plain n (sextets_lt bytes n hn)
    simp [this]
  have hread : ∀ ns : List Nat, (∀ n ∈ ns, n < 64) →
      (ns.map base64Char).mapM base64Value = some ns := by
    intro ns hns
    induction ns with
    | nil => rfl
    | cons n ns ih =>
      rw [List.map_cons, List.mapM_cons, base64Value_char n (hns n List.mem_cons_self),
        ih fun m hm => hns m (List.mem_cons_of_mem _ hm)]
      rfl
  rw [decodeString, hplain, base64_eq, hread _ (sextets_lt bytes)]
  exact unbase64_sextets bytes

theorem dollar_notMem_base64 (bytes : Bytes) : '$' ∉ base64 bytes := by
  rw [base64_eq]
  intro h
  obtain ⟨n, hn, hc⟩ := List.mem_map.mp h
  exact (base64Char_plain n (sextets_lt bytes n hn)).2.2 hc

theorem digits_notMem {c : Char} (hc : c ∉ Text.decimalDigits) (n : Nat) : c ∉ digits n :=
  fun h => hc (mem_itoa h)

theorem parseKV_digits (key : Char) (hkey : key ≠ '=') {n : Nat} (hn : n < 2 ^ 32) :
    parseKV (key :: '=' :: digits n) key = .ok n := by
  have hcut : Text.cutChars '=' (key :: '=' :: digits n) = some ([key], digits n) :=
    Text.cutChars_append '=' [key] (digits n) (by simpa using hkey.symm)
  have hread : parseUint32 (digits n) = some n := by
    have hvalue : readDigits 10 (digits n) = n := by
      rw [digits, itoa_toList]
      exact readDigits_toDigits (by decide) (by decide) n
    have hdec : (digits n).all isDec = true := by
      rw [List.all_eq_true, digits, itoa_toList]
      exact isDec_toDigits n
    have hne : digits n ≠ [] := by simpa [digits] using itoa_ne_empty n
    rw [parseUint32, hvalue, if_pos ⟨hne, hdec, hn⟩]
  simp [parseKV, hcut, hread]

theorem parseCosts_costs (p : HashParams) :
    parseCosts p.costs = .ok (p.memory.toNat, p.time.toNat, p.threads.toNat) := by
  have hsplit : Text.splitChars ',' p.costs =
      ['m' :: '=' :: digits p.memory.toNat, 't' :: '=' :: digits p.time.toNat,
        'p' :: '=' :: digits p.threads.toNat] := by
    have hno : ∀ (key : Char) (n : Nat), key ≠ ',' → ',' ∉ key :: '=' :: digits n := by
      intro key n hkey
      simp [hkey.symm, digits_notMem (by decide : ',' ∉ Text.decimalDigits)]
    rw [HashParams.costs, Text.splitChars_append (hno 'm' _ (by decide)),
      Text.splitChars_append (hno 't' _ (by decide)),
      Text.splitChars_of_notMem (hno 'p' _ (by decide))]
  have hthreads : p.threads.toNat < 2 ^ 32 := lt_trans p.threads.toNat_lt (by decide)
  unfold parseCosts
  rw [hsplit]
  simp only [parseKV_digits 'm' (by decide) p.memory.toNat_lt,
    parseKV_digits 't' (by decide) p.time.toNat_lt, parseKV_digits 'p' (by decide) hthreads]
  rfl

theorem splitChars_encode (p : HashParams) :
    Text.splitChars '$' (Utf8.lossy p.encode) =
      [[], "argon2id".toList, "v=19".toList, p.costs, base64 p.salt, base64 p.key] := by
  have hcosts : '$' ∉ p.costs := by
    simp [HashParams.costs, digits_notMem (by decide : '$' ∉ Text.decimalDigits)]
  rw [HashParams.encode, Utf8.lossy_encode]
  show Text.splitChars '$' ([] ++ '$' :: ("argon2id".toList ++ '$' :: ("v=19".toList ++
    '$' :: (p.costs ++ '$' :: base64 p.salt ++ '$' :: base64 p.key)))) = _
  rw [Text.splitChars_append (by simp), Text.splitChars_append (by decide),
    Text.splitChars_append (by decide), List.append_assoc]
  show _ :: _ :: _ ::
    Text.splitChars '$' (p.costs ++ '$' :: (base64 p.salt ++ '$' :: base64 p.key)) = _
  rw [Text.splitChars_append hcosts, Text.splitChars_append (dollar_notMem_base64 p.salt),
    Text.splitChars_of_notMem (dollar_notMem_base64 p.key)]

theorem decodeHash_encode {p : HashParams} (h : p.InRange) : decodeHash p.encode = .ok p := by
  have hversion : checkVersion ['v', '=', '1', '9'] = .ok () := by decide
  unfold decodeHash
  rw [splitChars_encode]
  simp [hversion, parseCosts_costs, decodeString_base64, orError, bind, Except.bind, pure,
    Except.pure, checkRange_ok.mpr h.memory, checkRange_ok.mpr h.time, checkRange_ok.mpr h.threads,
    checkRange_ok.mpr h.salt, checkRange_ok.mpr h.key]

theorem decodeHash_inRange {stored : Bytes} {p : HashParams} (h : decodeHash stored = .ok p) :
    p.InRange := by
  unfold decodeHash at h
  split at h
  · obtain ⟨-, h⟩ := Outcome.guard_ok h
    obtain ⟨-, -, h⟩ := Outcome.bind_ok h
    obtain ⟨⟨memory, time, threads⟩, -, h⟩ := Outcome.bind_ok h
    obtain ⟨_, hmemory, h⟩ := Outcome.bind_ok h
    obtain ⟨_, htime, h⟩ := Outcome.bind_ok h
    obtain ⟨_, hthreads, h⟩ := Outcome.bind_ok h
    obtain ⟨salt, -, h⟩ := Outcome.bind_ok h
    obtain ⟨key, -, h⟩ := Outcome.bind_ok h
    obtain ⟨_, hsalt, h⟩ := Outcome.bind_ok h
    obtain ⟨_, hkey, h⟩ := Outcome.bind_ok h
    cases h
    rw [checkRange_ok] at hmemory htime hthreads hsalt hkey
    -- the three numbers are small enough for their types
    have hmemory' : (UInt32.ofNat memory).toNat = memory :=
      UInt32.toNat_ofNat_of_lt' (lt_of_le_of_lt hmemory.2 (by decide))
    have htime' : (UInt32.ofNat time).toNat = time :=
      UInt32.toNat_ofNat_of_lt' (lt_of_le_of_lt htime.2 (by decide))
    have hthreads' : (UInt8.ofNat threads).toNat = threads :=
      UInt8.toNat_ofNat_of_lt' (lt_of_le_of_lt hthreads.2 (by decide))
    exact ⟨by rwa [hmemory'], by rwa [htime'], by rwa [hthreads'], hsalt, hkey⟩
  · cases h

/-- **Parameters in range are read back as they were written, and whatever text is
accepted is verified at a cost in range.** -/
theorem hash_costs :
    (∀ p : HashParams, p.InRange → decodeHash p.encode = .ok p) ∧
      ∀ stored p, decodeHash stored = .ok p → p.InRange ∧
        ∀ idKey plaintext,
          verifyPassword idKey stored plaintext = .ok (p.derive idKey plaintext = p.key) := by
  refine ⟨fun p h => decodeHash_encode h, fun stored p h => ⟨decodeHash_inRange h, ?_⟩⟩
  intro idKey plaintext
  unfold verifyPassword
  rw [h]
  rfl

/-- What `hashPassword` stores has the cost of this build. -/
theorem hashed_costs_read :
    decodeHash (encodeHash (List.replicate 16 7) (List.replicate 32 9)) =
      .ok ⟨3, 65536, 4, List.replicate 16 7, List.replicate 32 9⟩ :=
  hash_costs.1 ⟨3, 65536, 4, List.replicate 16 7, List.replicate 32 9⟩ ⟨by decide, by decide,
    by decide, by decide, by decide⟩

end Caspian.Persist
