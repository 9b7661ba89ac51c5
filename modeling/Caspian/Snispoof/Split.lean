import Caspian.Verified.Reader
import Caspian.Snispoof.Hello

/-!
# Splitting the ClientHello

`splitHello` reads TLS records until the ClientHello in them is complete and
returns them with the place to cut, which is in the middle of the host name.
Asked to, it also splits the record with that place in two.

The bytes are looked at as the records they are: `gather_ok` says that what
was read is a list of records with a complete ClientHello in them and not one
record more, `SplitsOne` what may become of the list, and `payloadBefore` at
which place of the handshake a place of the wire is.  `splitHello_ok` is what
a caller can rely on.
-/

namespace Caspian.Snispoof

open Verified Verified.Bytes Verified.Reader

/-! ## The program -/

/-- Where a record stands: its place on the wire, the place of its payload in
the handshake, and the payload's size. -/
structure Span where
  wire : Nat
  payload : Nat
  size : Nat
  deriving DecidableEq, Repr

/-- What `splitHello` has read so far. -/
structure Gathered where
  wire : List UInt8 := []
  hello : List UInt8 := []
  spans : List Span := []
  need : Nat := 4

inductive SplitError where
  | read (e : ReadError)
  /-- `ErrClientHello` -/
  | clientHello
  deriving DecidableEq, Repr

/-- The size of the handshake message by its own header. -/
def needOf (hello : List UInt8) : Nat :=
  4 + byteAt hello 1 * 65536 + byteAt hello 2 * 256 + byteAt hello 3

/-- A record header the loop refuses. -/
def refuses (g : Gathered) (header : List UInt8) : Bool :=
  byteAt header 0 ≠ 22 || byteAt header 1 ≠ 3 || 3 < byteAt header 2 || u16At header 3 = 0 ||
    16384 < u16At header 3 || 64 ≤ g.spans.length || 65536 < g.hello.length + u16At header 3

/-- The record joins the others. -/
def Gathered.add (g : Gathered) (header body : List UInt8) : Gathered where
  wire := g.wire ++ (header ++ body)
  hello := g.hello ++ body
  spans := g.spans ++ [⟨g.wire.length, g.hello.length, u16At header 3⟩]
  need := g.need

/-- The size that is needed, once the header of the message is there. -/
def Gathered.measure (g : Gathered) : Except SplitError Gathered :=
  if 4 ≤ g.hello.length then
    if byteAt g.hello 0 ≠ 1 ∨ 65536 < needOf g.hello ∨ needOf g.hello < 42 then .error .clientHello
    else .ok { g with need := needOf g.hello }
  else .ok g

/-- One round of the loop of `splitHello`: a header, its body, and the size
that is needed from then on. -/
def readRecord (g : Gathered) (r : Reader UInt8) : Except SplitError (Gathered × Reader UInt8) :=
  match readFull 5 r with
  | .error e => .error (.read e)
  | .ok (header, r) =>
    if refuses g header then .error .clientHello
    else
      match readFull (u16At header 3) r with
      | .error e => .error (.read e)
      | .ok (body, r) =>
        match (g.add header body).measure with
        | .error e => .error e
        | .ok g => .ok (g, r)

/-- The loop, with the number of records that are still allowed; the one after
them is refused by its count. -/
def gather : Nat → Gathered → Reader UInt8 → Except SplitError (Gathered × Reader UInt8)
  | 0, g, r =>
    if g.need ≤ g.hello.length then .ok (g, r)
    else
      match readRecord g r with
      | .error e => .error e
      | .ok _ => .error .clientHello
  | left + 1, g, r =>
    if g.need ≤ g.hello.length then .ok (g, r)
    else
      match readRecord g r with
      | .error e => .error e
      | .ok (g, r) => gather left g r

/-- `binary.BigEndian.PutUint16` into a byte string. -/
def putU16 (b : List UInt8) (p n : Nat) : List UInt8 := b.take p ++ (be16 n ++ b.drop (p + 2))

/-- The record of the span, split after `part` bytes of its payload. -/
def splitRecord (wire : List UInt8) (s : Span) (part : Nat) : List UInt8 :=
  putU16 (wire.take (s.wire + 5 + part)) (s.wire + 3) part ++
    ((wire.drop s.wire).take 3 ++ (be16 (s.size - part) ++ wire.drop (s.wire + 5 + part)))

/-- `splitHello`: the bytes to send, the place to cut them, and what is left
to read. -/
def splitHello (r : Reader UInt8) (records : Bool) :
    Except SplitError (List UInt8 × Nat × Reader UInt8) :=
  match gather 64 {} r with
  | .error e => .error e
  | .ok (g, r) =>
    match helloSplitPosition (g.hello.take g.need) with
    | none => .error .clientHello
    | some cut =>
      match g.spans.find? fun s => s.payload ≤ cut && cut < s.payload + s.size with
      | none => .error .clientHello
      | some s =>
        let part := cut - s.payload
        if records && 0 < part then
          .ok (splitRecord g.wire s part, s.wire + 5 + part + 5, r)
        else .ok (g.wire, s.wire + 5 + part, r)

/-! ## Records -/

/-- A handshake record. -/
structure TlsRecord where
  minor : UInt8
  body : List UInt8
  minor_le : minor.toNat ≤ 3
  size : 0 < body.length ∧ body.length ≤ 16384

def TlsRecord.bytes (x : TlsRecord) : List UInt8 :=
  22 :: 3 :: x.minor :: (be16 x.body.length ++ x.body)

def wire (rs : List TlsRecord) : List UInt8 := rs.flatMap TlsRecord.bytes

def payload (rs : List TlsRecord) : List UInt8 := rs.flatMap TlsRecord.body

theorem TlsRecord.length_bytes (x : TlsRecord) : x.bytes.length = 5 + x.body.length := by
  simp only [TlsRecord.bytes, List.length_cons, List.length_append, length_be16]
  omega

@[simp] theorem wire_append (a b : List TlsRecord) : wire (a ++ b) = wire a ++ wire b :=
  List.flatMap_append

@[simp] theorem payload_append (a b : List TlsRecord) : payload (a ++ b) = payload a ++ payload b :=
  List.flatMap_append

@[simp] theorem wire_cons (x : TlsRecord) (rs : List TlsRecord) : wire (x :: rs) = x.bytes ++ wire rs :=
  List.flatMap_cons

@[simp] theorem payload_cons (x : TlsRecord) (rs : List TlsRecord) :
    payload (x :: rs) = x.body ++ payload rs :=
  List.flatMap_cons

/-- The ClientHello is there in full. -/
def Complete (hello : List UInt8) : Prop := 4 ≤ hello.length ∧ needOf hello ≤ hello.length

/-- The records hold a complete ClientHello, and without the last one they do
not. -/
def Completes (rs : List TlsRecord) : Prop :=
  Complete (payload rs) ∧ ∀ init last, rs = init ++ [last] → ¬Complete (payload init)

/-- The records as they were, or one of them in two parts. -/
inductive SplitsOne : List TlsRecord → List TlsRecord → Prop where
  | same (rs : List TlsRecord) : SplitsOne rs rs
  | split (a : List TlsRecord) (x y z : TlsRecord) (b : List TlsRecord) (hy : y.minor = x.minor)
      (hz : z.minor = x.minor) (hbody : x.body = y.body ++ z.body) :
      SplitsOne (a ++ x :: b) (a ++ y :: z :: b)

/-- How many bytes of the handshake stand before a place of the wire. -/
def payloadBefore : List TlsRecord → Nat → Nat
  | [], _ => 0
  | x :: rs, n =>
    if n ≤ 5 + x.body.length then n - 5
    else x.body.length + payloadBefore rs (n - (5 + x.body.length))

/-! ## Gathering -/

/-- The spans of records that begin at the given places. -/
def spansFrom (w p : Nat) : List TlsRecord → List Span
  | [] => []
  | x :: rs => ⟨w, p, x.body.length⟩ :: spansFrom (w + (5 + x.body.length)) (p + x.body.length) rs

theorem spansFrom_snoc (w p : Nat) (rs : List TlsRecord) (x : TlsRecord) :
    spansFrom w p (rs ++ [x]) =
      spansFrom w p rs ++ [⟨w + (wire rs).length, p + (payload rs).length, x.body.length⟩] := by
  induction rs generalizing w p with
  | nil => rfl
  | cons y rs ih =>
    rw [List.cons_append, spansFrom, ih, spansFrom, wire_cons, payload_cons, List.length_append,
      List.length_append, y.length_bytes, List.cons_append]
    simp only [Nat.add_assoc]

/-- What the loop has gathered is this list of records. -/
structure Holds (rs : List TlsRecord) (g : Gathered) : Prop where
  wire : g.wire = wire rs
  hello : g.hello = payload rs
  spans : g.spans = spansFrom 0 0 rs
  need : g.need = if 4 ≤ (payload rs).length then needOf (payload rs) else 4
  minimal : ∀ init last, rs = init ++ [last] → ¬Complete (payload init)

theorem holds_nil : Holds [] {} := by
  constructor
  case wire => rfl
  case hello => rfl
  case spans => rfl
  case need => rfl
  case minimal =>
    intro init last h
    exact absurd (congrArg List.length h) (by simp)

variable {rs : List TlsRecord} {g : Gathered}

theorem Holds.complete_iff (h : Holds rs g) : g.need ≤ g.hello.length ↔ Complete (payload rs) := by
  rw [h.need, h.hello, Complete]
  split
  · rename_i hfour
    exact ⟨fun hle => ⟨hfour, hle⟩, fun hc => hc.2⟩
  · rename_i hfour
    exact ⟨fun hle => absurd hle hfour, fun hc => absurd hc.1 hfour⟩

/-- Two bytes are the number they are read as. -/
theorem be16_u16 (d e : UInt8) : be16 (d.toNat * 256 + e.toNat) = [d, e] := by
  have hd := d.toNat_lt
  have he := e.toNat_lt
  have hhigh : UInt8.ofNat ((d.toNat * 256 + e.toNat) / 256) = d := by
    apply UInt8.toNat_inj.mp
    rw [UInt8.toNat_ofNat']
    omega
  have hlow : UInt8.ofNat (d.toNat * 256 + e.toNat) = e := by
    apply UInt8.toNat_inj.mp
    rw [UInt8.toNat_ofNat']
    omega
  rw [be16, hhigh, hlow]

/-- A header the loop takes is the header of a record. -/
theorem record_of_header {header body : List UInt8} (hlen : header.length = 5)
    (hok : refuses g header = false) (hbody : body.length = u16At header 3) :
    ∃ x : TlsRecord, x.body = body ∧ header ++ body = x.bytes := by
  obtain ⟨a, b, c, d, e, rfl⟩ : ∃ a b c d e, header = [a, b, c, d, e] := by
    rcases header with _ | ⟨a, _ | ⟨b, _ | ⟨c, _ | ⟨d, _ | ⟨e, _ | ⟨f, rest⟩⟩⟩⟩⟩⟩
    case cons.cons.cons.cons.cons.nil => exact ⟨a, b, c, d, e, rfl⟩
    all_goals simp at hlen
  rw [refuses] at hok
  simp only [Bool.or_eq_false_iff, decide_eq_false_iff_not, not_not] at hok
  obtain ⟨⟨⟨⟨⟨⟨ha, hb⟩, hc⟩, hzero⟩, hbig⟩, -⟩, -⟩ := hok
  have ha : a = 22 := UInt8.toNat_inj.mp ha
  have hb : b = 3 := UInt8.toNat_inj.mp hb
  have hc : c.toNat ≤ 3 := Nat.le_of_not_lt hc
  have hsize : body.length = d.toNat * 256 + e.toNat := hbody
  refine ⟨⟨c, body, hc, by omega⟩, rfl, ?_⟩
  show [a, b, c, d, e] ++ body = 22 :: 3 :: c :: (be16 body.length ++ body)
  rw [hsize, be16_u16, ha, hb]
  rfl

variable {g' : Gathered} {x : TlsRecord}

theorem Holds.add {header : List UInt8} (h : Holds rs g) (hmore : ¬Complete (payload rs))
    (hx : header ++ x.body = x.bytes) (hsize : x.body.length = u16At header 3)
    (hok : (g.add header x.body).measure = .ok g') : Holds (rs ++ [x]) g' := by
  have hhello : (g.add header x.body).hello = payload (rs ++ [x]) := by
    simp [Gathered.add, h.hello, payload]
  have hminimal : ∀ init last, rs ++ [x] = init ++ [last] → ¬Complete (payload init) := by
    intro init last heq
    rw [← (List.append_inj' heq rfl).1]
    exact hmore
  have hadd : Snispoof.wire (rs ++ [x]) = (g.add header x.body).wire ∧
      spansFrom 0 0 (rs ++ [x]) = (g.add header x.body).spans := by
    constructor
    · simp [Gathered.add, h.wire, hx, Snispoof.wire]
    · rw [spansFrom_snoc, Gathered.add, h.spans, h.wire, h.hello, hsize, Nat.zero_add, Nat.zero_add]
  unfold Gathered.measure at hok
  rw [hhello] at hok
  split at hok
  · rename_i hfour
    split at hok
    · cases hok
    · obtain rfl := Except.ok.inj hok
      exact ⟨hadd.1.symm, rfl, hadd.2.symm, (if_pos hfour).symm, hminimal⟩
  · rename_i hfour
    obtain rfl := Except.ok.inj hok
    refine ⟨hadd.1.symm, hhello, hadd.2.symm, ?_, hminimal⟩
    rw [if_neg hfour]
    have hshort : ¬4 ≤ (payload rs).length := by
      rw [payload_append, List.length_append] at hfour
      omega
    show g.need = 4
    rw [h.need, if_neg hshort]

variable {r : Reader UInt8}

/-- The record of a round. -/
theorem readRecord_ok {r' : Reader UInt8} (h : Holds rs g) (hmore : ¬Complete (payload rs))
    (hok : readRecord g r = .ok (g', r')) :
    ∃ x, Holds (rs ++ [x]) g' ∧ r.flatten = x.bytes ++ r'.flatten := by
  unfold readRecord at hok
  split at hok
  · cases hok
  · rename_i header r1 hheader
    split at hok
    · cases hok
    · rename_i hrefuses
      split at hok
      · cases hok
      · rename_i body r2 hbody
        split at hok
        · cases hok
        · rename_i g1 hmeasure
          cases hok
          obtain ⟨hlen, hflat⟩ := readFull_ok hheader
          obtain ⟨hblen, hbflat⟩ := readFull_ok hbody
          obtain ⟨x, rfl, hx⟩ := record_of_header hlen (Bool.not_eq_true _ ▸ hrefuses) hblen
          refine ⟨x, h.add hmore hx hblen hmeasure, ?_⟩
          rw [hflat, hbflat, ← hx, List.append_assoc]

theorem Holds.enough (h : Holds rs g) (hneed : g.need ≤ g.hello.length) (r : Reader UInt8) :
    ∃ more, Holds (rs ++ more) g ∧ Complete (payload (rs ++ more)) ∧
      r.flatten = Snispoof.wire more ++ r.flatten := by
  refine ⟨[], ?_, ?_, rfl⟩
  · rwa [List.append_nil]
  · rw [List.append_nil]
    exact h.complete_iff.mp hneed

/-- **What is read is the records up to the end of the ClientHello.** -/
theorem gather_ok {left : Nat} {r' : Reader UInt8} (h : Holds rs g)
    (hok : gather left g r = .ok (g', r')) :
    ∃ more, Holds (rs ++ more) g' ∧ Complete (payload (rs ++ more)) ∧
      r.flatten = wire more ++ r'.flatten := by
  induction left generalizing g r rs with
  | zero =>
    unfold gather at hok
    split at hok
    · rename_i hneed
      cases hok
      exact h.enough hneed _
    · split at hok <;> cases hok
  | succ left ih =>
    unfold gather at hok
    split at hok
    · rename_i hneed
      cases hok
      exact h.enough hneed _
    · rename_i hneed
      split at hok
      · cases hok
      · rename_i g1 r1 hrecord
        obtain ⟨x, hholds, hflat⟩ :=
          readRecord_ok h (fun hc => hneed (h.complete_iff.mpr hc)) hrecord
        obtain ⟨more, hholds, hcomplete, hend⟩ := ih hholds hok
        refine ⟨x :: more, ?_, ?_, ?_⟩
        · rwa [List.append_assoc] at hholds
        · rwa [List.append_assoc] at hcomplete
        · rw [hflat, hend, wire_cons, List.append_assoc]

/-! ## Splitting -/

/-- The span that is found is that of the record with the place in it. -/
theorem find_span {w p cut : Nat} (hfrom : p ≤ cut) (hto : cut < p + (payload rs).length) :
    ∃ a x b, rs = a ++ x :: b ∧
      (spansFrom w p rs).find? (fun s => s.payload ≤ cut && cut < s.payload + s.size) =
        some ⟨w + (wire a).length, p + (payload a).length, x.body.length⟩ ∧
      p + (payload a).length ≤ cut ∧ cut < p + (payload a).length + x.body.length := by
  induction rs generalizing w p with
  | nil => exact absurd hto (by simp [payload]; omega)
  | cons y rs ih =>
    by_cases hin : cut < p + y.body.length
    · refine ⟨[], y, rs, rfl, ?_, hfrom, hin⟩
      rw [spansFrom, List.find?_cons_of_pos (by simp [hfrom, hin])]
      rfl
    · rw [payload_cons, List.length_append] at hto
      obtain ⟨a, x, b, rfl, hfind, hle, hlt⟩ :=
        @ih (w + (5 + y.body.length)) (p + y.body.length) (by omega) (by omega)
      refine ⟨y :: a, x, b, rfl, ?_, ?_, ?_⟩
      · rw [spansFrom, List.find?_cons_of_neg (by simp; omega), hfind, wire_cons, payload_cons,
          List.length_append, List.length_append, y.length_bytes]
        simp only [Nat.add_assoc]
      · rw [payload_cons, List.length_append]
        omega
      · rw [payload_cons, List.length_append]
        omega

/-- A record in two parts. -/
theorem TlsRecord.parts (x : TlsRecord) {part : Nat} (hpos : 0 < part) (hlt : part < x.body.length) :
    ∃ y z : TlsRecord, y.minor = x.minor ∧ z.minor = x.minor ∧ x.body = y.body ++ z.body ∧
      y.body.length = part := by
  have hle := x.size.2
  refine ⟨⟨x.minor, x.body.take part, x.minor_le, ?_⟩, ⟨x.minor, x.body.drop part, x.minor_le, ?_⟩,
    rfl, rfl, ?_, ?_⟩
  · rw [List.length_take]
    omega
  · rw [List.length_drop]
    omega
  · exact (List.take_append_drop _ _).symm
  · show (x.body.take part).length = part
    rw [List.length_take]
    omega

variable {a b : List TlsRecord}

/-- The bytes of the split record are those of its parts. -/
theorem splitRecord_eq {y z : TlsRecord} (p : Nat) (hy : y.minor = x.minor) (hz : z.minor = x.minor)
    (hbody : x.body = y.body ++ z.body) :
    splitRecord (wire (a ++ x :: b)) ⟨(wire a).length, p, x.body.length⟩ y.body.length =
      wire (a ++ y :: z :: b) := by
  have hsize : x.body.length - y.body.length = z.body.length := by
    rw [hbody, List.length_append]
    omega
  have hwire : wire (a ++ x :: b) =
      (wire a ++ [22, 3, x.minor] ++ (be16 x.body.length ++ y.body)) ++ (z.body ++ wire b) := by
    simp [TlsRecord.bytes, hbody]
  have hlen : (wire a ++ [22, 3, x.minor] ++ (be16 x.body.length ++ y.body)).length =
      (wire a).length + 5 + y.body.length := by
    simp
    omega
  have hmark : (wire a ++ [22, 3, x.minor]).length = (wire a).length + 3 := by simp
  have hput : putU16 (wire a ++ [22, 3, x.minor] ++ (be16 x.body.length ++ y.body))
      ((wire a).length + 3) y.body.length =
        wire a ++ [22, 3, x.minor] ++ (be16 y.body.length ++ y.body) := by
    have hrest : (wire a ++ [22, 3, x.minor] ++ (be16 x.body.length ++ y.body)).drop
        ((wire a).length + 3 + 2) = y.body := by
      rw [← List.append_assoc]
      exact List.drop_left' (by simp)
    rw [putU16, hrest, List.take_left' hmark]
  have hcopy : ((wire (a ++ x :: b)).drop (wire a).length).take 3 = [22, 3, x.minor] := by
    rw [wire_append, List.drop_left, wire_cons, TlsRecord.bytes]
    rfl
  have hhead : (wire (a ++ x :: b)).take ((wire a).length + 5 + y.body.length) =
      wire a ++ [22, 3, x.minor] ++ (be16 x.body.length ++ y.body) := by
    rw [hwire, List.take_left' hlen]
  have htail : (wire (a ++ x :: b)).drop ((wire a).length + 5 + y.body.length) = z.body ++ wire b := by
    rw [hwire, List.drop_left' hlen]
  rw [splitRecord]
  dsimp only
  rw [hhead, hput, hcopy, htail, hsize]
  simp [TlsRecord.bytes, hy, hz]

/-! ## Places -/

theorem payloadBefore_append (a rs : List TlsRecord) {n : Nat} (hn : 0 < n) :
    payloadBefore (a ++ rs) ((wire a).length + n) = (payload a).length + payloadBefore rs n := by
  induction a with
  | nil => simp [wire, payload]
  | cons x a ih =>
    have hpast : ¬(wire (x :: a)).length + n ≤ 5 + x.body.length := by
      rw [wire_cons, List.length_append, x.length_bytes]
      omega
    have hback : (wire (x :: a)).length + n - (5 + x.body.length) = (wire a).length + n := by
      rw [wire_cons, List.length_append, x.length_bytes]
      omega
    rw [List.cons_append, payloadBefore, if_neg hpast, hback, ih, payload_cons, List.length_append,
      Nat.add_assoc]

theorem SplitsOne.payload_eq {outs : List TlsRecord} (h : SplitsOne rs outs) :
    payload outs = payload rs := by
  cases h with
  | same => rfl
  | split a x y z b hy hz hbody => simp [hbody]

theorem SplitsOne.length_le {outs : List TlsRecord} (h : SplitsOne rs outs) :
    outs.length ≤ rs.length + 1 := by
  cases h with
  | same => omega
  | split a x y z b hy hz hbody =>
    simp only [List.length_append, List.length_cons]
    omega

/-- The records on the two sides of a place: none of them goes over it. -/
theorem record_beside {u v : List TlsRecord} (h : u ++ v = a ++ x :: b) :
    (payload a).length + x.body.length ≤ (payload u).length ∨
      (payload u).length ≤ (payload a).length := by
  rcases List.append_eq_append_iff.mp h with ⟨m, rfl, -⟩ | ⟨m, rfl, hm⟩
  · right
    rw [payload_append, List.length_append]
    omega
  · cases m with
    | nil =>
      right
      rw [List.append_nil]
    | cons y m =>
      left
      obtain ⟨rfl, -⟩ := List.cons.inj hm
      rw [payload_append, payload_cons, List.length_append, List.length_append]
      omega

/-- What comes out, and where it is cut: in the payload the place is `spot`, and
with `records` it is the end of a record. -/
structure Cut (records : Bool) (rs outs : List TlsRecord) (place spot : Nat) : Prop where
  splits : SplitsOne rs outs
  plain : records = false → outs = rs
  pos : 0 < place
  lt : place < (wire outs).length
  payload : payloadBefore outs place = spot
  boundary : records = true → ∃ u v, outs = u ++ v ∧ (Snispoof.payload u).length = spot

variable {records : Bool}

/-- The place is on the border of two records, or they are not to be split. -/
theorem cut_unsplit {part : Nat} (hlt : part < x.body.length)
    (hrecords : records = true → part = 0) :
    Cut records (a ++ x :: b) (a ++ x :: b) ((wire a).length + 5 + part)
      ((payload a).length + part) := by
  constructor
  case splits => exact .same _
  case plain => exact fun _ => rfl
  case pos => omega
  case lt =>
    rw [wire_append, wire_cons, List.length_append, List.length_append, x.length_bytes]
    omega
  case payload =>
    rw [Nat.add_assoc, payloadBefore_append _ _ (by omega), payloadBefore, if_pos (by omega)]
    omega
  case boundary =>
    intro hr
    refine ⟨a, x :: b, rfl, ?_⟩
    rw [hrecords hr]
    rfl

theorem cut_split {y z : TlsRecord} (hrecords : records = true) (hy : y.minor = x.minor)
    (hz : z.minor = x.minor) (hbody : x.body = y.body ++ z.body) :
    Cut records (a ++ x :: b) (a ++ y :: z :: b) ((wire a).length + 5 + y.body.length + 5)
      ((payload a).length + y.body.length) := by
  have hsize := z.size.1
  constructor
  case splits => exact .split a x y z b hy hz hbody
  case plain =>
    intro hr
    rw [hr] at hrecords
    cases hrecords
  case pos => omega
  case lt =>
    simp only [wire_append, wire_cons, List.length_append, TlsRecord.length_bytes]
    omega
  case payload =>
    have hplace : (wire a).length + 5 + y.body.length + 5 =
        (wire a).length + (5 + y.body.length + 5) := by omega
    rw [hplace, payloadBefore_append _ _ (by omega), payloadBefore, if_neg (by omega), payloadBefore,
      if_pos (by omega)]
    omega
  case boundary =>
    refine fun _ => ⟨a ++ [y], z :: b, by simp, ?_⟩
    simp [payload]

/-- `splitHello` in terms of the records it read. -/
theorem splitHello_cut {rest : Reader UInt8} {out : List UInt8} {place : Nat}
    (h : splitHello r records = .ok (out, place, rest)) :
    ∃ rs outs spot, r.flatten = wire rs ++ rest.flatten ∧ Completes rs ∧ out = wire outs ∧
      helloSplitPosition ((payload rs).take (needOf (payload rs))) = some spot ∧
      Cut records rs outs place spot := by
  unfold splitHello at h
  cases hgather : gather 64 {} r with
  | error e =>
    rw [hgather] at h
    cases h
  | ok p =>
    obtain ⟨g, r1⟩ := p
    obtain ⟨rs, hholds, hcomplete, hflat⟩ := gather_ok holds_nil hgather
    rw [List.nil_append] at hholds hcomplete
    have hneed : g.need = needOf (payload rs) := by rw [hholds.need, if_pos hcomplete.1]
    rw [hgather] at h
    dsimp only at h
    rw [hholds.hello, hneed, hholds.wire, hholds.spans] at h
    cases hpos : helloSplitPosition ((payload rs).take (needOf (payload rs))) with
    | none =>
      rw [hpos] at h
      cases h
    | some spot =>
      rw [hpos] at h
      dsimp only at h
      have hinside := (helloSplitPosition_inside hpos).2
      rw [List.length_take] at hinside
      obtain ⟨a, x, b, rfl, hfind, hle, hlt⟩ :=
        @find_span rs 0 0 spot (Nat.zero_le _) (by omega)
      rw [hfind] at h
      dsimp only at h
      rw [Nat.zero_add] at h hle hlt
      rw [Nat.zero_add] at h
      have hat : (payload a).length + (spot - (payload a).length) = spot := by omega
      split at h
      · rename_i hsplit
        rw [Bool.and_eq_true, decide_eq_true_eq] at hsplit
        obtain ⟨y, z, hy, hz, hbody, hpart⟩ :=
          x.parts hsplit.2 (show spot - (payload a).length < x.body.length by omega)
        rw [← hpart, splitRecord_eq _ hy hz hbody] at h
        cases h
        refine ⟨a ++ x :: b, a ++ y :: z :: b, _, hflat, ⟨hcomplete, hholds.minimal⟩, rfl, hpos, ?_⟩
        have hcut := @cut_split x a b records y z hsplit.1 hy hz hbody
        rw [← hpart] at hat
        rwa [hat] at hcut
      · rename_i hsplit
        cases h
        refine ⟨a ++ x :: b, a ++ x :: b, _, hflat, ⟨hcomplete, hholds.minimal⟩, rfl, hpos, ?_⟩
        have hrecords : records = true → spot - (payload a).length = 0 := by
          intro hr
          rw [hr, Bool.true_and, decide_eq_true_eq] at hsplit
          omega
        have hcut := @cut_unsplit x a b records _ (by omega) hrecords
        rwa [hat] at hcut

/-! ## Two ClientHellos -/

/-- A ClientHello with nothing in it but its server names. -/
def demoHello (names : List ServerName) : ClientHello where
  head := [1, 0, 0, UInt8.ofNat (53 + (names.flatMap ServerName.bytes).length - 4), 3, 3] ++
    List.replicate 32 0
  session := []
  ciphers := [19, 1]
  compression := [0]
  extensions := if h : (serverNameList names).length < 65536 then
    some [⟨0, serverNameList names, by decide, h⟩] else none
  head_size := by simp
  session_size := by decide
  ciphers_size := by decide
  compression_size := by decide

def demoRecord (names : List ServerName) : List UInt8 :=
  22 :: 3 :: 1 :: (be16 (demoHello names).bytes.length ++ (demoHello names).bytes)

/-- A stream with one host name and a byte more, in three chunks. -/
def demoReader : Reader UInt8 :=
  let bytes := demoRecord [⟨0, [97, 98, 99, 100], by decide⟩]
  [bytes.take 7, [], bytes.drop 7 ++ [23]]

def firstName : ServerName := ⟨0, [97, 98], by decide⟩

def secondName : ServerName := ⟨0, [99], by decide⟩

/-- The records of a ClientHello with two host names, split in the second. -/
def splitBetween : List TlsRecord :=
  [⟨1, (demoHello [firstName, secondName]).bytes.take 61, by decide, by decide⟩,
    ⟨1, (demoHello [firstName, secondName]).bytes.drop 61, by decide, by decide⟩]

/-- **Splitting keeps the handshake and splits the name.**  What was read is
the records up to the end of the ClientHello and nothing after them.  What
comes out is these records, one of them perhaps in two parts where that was
asked for, with a place to cut that is inside.  If the last host name of the
ClientHello has two bytes or more, the place is inside of it, and no record
that comes out of a split has all of it. -/
theorem splitHello_splits_last_name {r rest : Reader UInt8} {records : Bool} {out : List UInt8}
    {cut : Nat} (h : splitHello r records = .ok (out, cut, rest)) :
    ∃ recs outs, r.flatten = wire recs ++ rest.flatten ∧ Completes recs ∧
      out = wire outs ∧ SplitsOne recs outs ∧ (records = false → outs = recs) ∧
      payload outs = payload recs ∧ outs.length ≤ recs.length + 1 ∧
      0 < cut ∧ cut < out.length ∧
      ∀ q name later, HostNameAt ((payload recs).take (needOf (payload recs))) q name later →
        (∀ s ∈ later, s.type ≠ 0) → 2 ≤ name.length →
        (q < payloadBefore outs cut ∧ payloadBefore outs cut < q + name.length) ∧
        (records = true → ∀ a x b, outs = a ++ x :: b →
          ¬((payload a).length ≤ q ∧ q + name.length ≤ (payload a).length + x.body.length)) := by
  obtain ⟨recs, outs, spot, hflat, hcompletes, rfl, hpos, hcut⟩ := splitHello_cut h
  refine ⟨recs, outs, hflat, hcompletes, rfl, hcut.splits, hcut.plain, hcut.splits.payload_eq,
    hcut.splits.length_le, hcut.pos, hcut.lt, ?_⟩
  intro q name later hname hlast hsize
  have hspot := helloSplitPosition_hostName hpos hname hlast
  constructor
  · rw [hcut.payload]
    omega
  · intro hrecords a x b houts hwhole
    obtain ⟨u, v, huv, hu⟩ := hcut.boundary hrecords
    rw [huv] at houts
    rcases record_beside houts with hbefore | hafter <;> omega

theorem demoReader_split :
    ∃ out cut rest recs outs, splitHello demoReader true = .ok (out, cut, rest) ∧
      demoReader.flatten = wire recs ++ rest.flatten ∧ out = wire outs ∧
      payload outs = payload recs ∧ 0 < cut ∧ cut < out.length := by
  have hok : (splitHello demoReader true).isOk = true := by decide
  cases h : splitHello demoReader true with
  | error e =>
    rw [h] at hok
    cases hok
  | ok p =>
    obtain ⟨out, cut, rest⟩ := p
    obtain ⟨recs, outs, hflat, -, hout, -, -, hpayload, -, hpos, hlt, -⟩ :=
      splitHello_splits_last_name h
    exact ⟨out, cut, rest, recs, outs, rfl, hflat, hout, hpayload, hpos, hlt⟩

/-- With two host names, the second of a single byte, the cut is in none of
them, and the first is whole in the first record. -/
theorem two_names_first_whole :
    ∃ x b cut, splitHello [demoRecord [firstName, secondName]] true = .ok (wire (x :: b), cut, [[]]) ∧
      HostNameAt (demoHello [firstName, secondName]).bytes 56 firstName.name [secondName] ∧
      payload (x :: b) = (demoHello [firstName, secondName]).bytes ∧
      payloadBefore (x :: b) cut = 61 ∧ 2 ≤ firstName.name.length ∧
      56 + firstName.name.length ≤ x.body.length := by
  have hlist : (serverNameList [firstName, secondName]).length < 65536 := by decide
  refine ⟨splitBetween.head (by simp [splitBetween]), splitBetween.tail, 71, by decide, ?_,
    by decide, by decide, by decide, by decide⟩
  refine ⟨demoHello [firstName, secondName], [],
    ⟨0, serverNameList [firstName, secondName], by decide, hlist⟩, [], [], firstName, rfl, ?_, rfl, rfl,
    rfl, rfl, by decide⟩
  simp only [demoHello, hlist, dif_pos, List.nil_append]

end Caspian.Snispoof
