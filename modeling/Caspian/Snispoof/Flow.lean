import Mathlib

/-!
# Confirming the spoofed handshake

A flow watches the packets of one connection.  After the third packet of the
TCP handshake a forged ClientHello is injected, with a sequence number the
server has already acknowledged, and the flow is confirmed by the server's
answer to it.  `observe` keeps flags only; two goroutines feed it, the capture
with packets and the injection with its outcome, one at a time under the
flow's lock.

`step` is one such event and `run` any interleaving of them.  The history that
the flags stand for is recovered in `Told`: what must have been seen, in which
order, for the flow to be where it is.  `run_confirmed` reads it off at the
end.
-/

namespace Caspian.Snispoof

/-! ## The program -/

def fin : UInt8 := 1
def syn : UInt8 := 2
def rst : UInt8 := 4
def ack : UInt8 := 16

/-- A TCP packet as far as a flow looks at it. -/
structure Packet where
  seq : UInt32
  ack : UInt32
  flags : UInt8
  payloadLen : Nat
  deriving DecidableEq, Repr

/-- `ErrConfirmation`. -/
inductive FlowError where
  | confirmation
  deriving DecidableEq, Repr

structure Flow where
  hello : List UInt8
  isn : UInt32 := 0
  peerISN : UInt32 := 0
  sawSYN : Bool := false
  sawSYNACK : Bool := false
  scheduled : Bool := false
  sent : Bool := false
  finished : Bool := false
  err : Option FlowError := none
  deriving DecidableEq, Repr

namespace Flow

/-- `finish`. -/
def finish (f : Flow) (err : Option FlowError) : Flow :=
  if f.finished then f else { f with err := err, finished := true }

/-- The sequence number of the forged ClientHello. -/
def forgedSeq (f : Flow) : UInt32 := f.isn + 1 - UInt32.ofNat f.hello.length

/-- `observe`: whether this packet is the one to inject after, and the flow
afterwards. -/
def observe (f : Flow) (p : Packet) (outbound : Bool) : Bool × Flow :=
  if f.finished then (false, f)
  else if p.flags &&& (fin ||| rst) ≠ 0 then (false, f.finish (some .confirmation))
  else if outbound ∧ f.sent ∧ p.seq = f.forgedSeq ∧ p.payloadLen = f.hello.length then (false, f)
  else if p.payloadLen ≠ 0 then (false, f.finish (some .confirmation))
  else if outbound ∧ p.flags &&& syn ≠ 0 ∧ p.flags &&& ack = 0 then
    if p.ack ≠ 0 ∨ (f.sawSYN ∧ f.isn ≠ p.seq) then (false, f.finish (some .confirmation))
    else (false, { f with isn := p.seq, sawSYN := true })
  else if ¬outbound ∧ p.flags &&& (syn ||| ack) = syn ||| ack then
    if ¬f.sawSYN ∨ p.ack ≠ f.isn + 1 ∨ (f.sawSYNACK ∧ f.peerISN ≠ p.seq) then
      (false, f.finish (some .confirmation))
    else (false, { f with peerISN := p.seq, sawSYNACK := true })
  else if p.flags &&& ack = 0 ∨ p.flags &&& syn ≠ 0 then (false, f.finish (some .confirmation))
  else if outbound then
    if ¬f.sawSYNACK ∨ p.seq ≠ f.isn + 1 ∨ p.ack ≠ f.peerISN + 1 then
      (false, f.finish (some .confirmation))
    else if f.scheduled then (false, f)
    else (true, { f with scheduled := true })
  else if f.sent then
    if p.seq ≠ f.peerISN + 1 ∨ p.ack ≠ f.isn + 1 then (false, f.finish (some .confirmation))
    else (false, f.finish none)
  else (false, f)

/-- The end of `inject`, with what `Send` answered. -/
def inject (f : Flow) (sent : Bool) : Flow :=
  if f.finished then f
  else if sent then { f with sent := true }
  else f.finish (some .confirmation)

end Flow

/-- What can happen to a flow: a packet, the end of the injection, and `connect`
giving up. -/
inductive Event where
  | packet (p : Packet) (outbound : Bool)
  | inject (sent : Bool)
  | giveUp
  deriving DecidableEq, Repr

/-- A flow with its injection: whether one is on its way, and how many packets
were found to be the one to inject after. -/
structure Watch where
  flow : Flow
  pending : Bool := false
  candidates : Nat := 0

/-- One event; there is no injection to end but the one on its way. -/
def step (w : Watch) : Event → Watch
  | .packet p outbound =>
    let r := w.flow.observe p outbound
    { flow := r.2, pending := w.pending || r.1,
      candidates := if r.1 then w.candidates + 1 else w.candidates }
  | .inject sent => if w.pending then { w with flow := w.flow.inject sent, pending := false } else w
  | .giveUp => { w with flow := w.flow.finish (some .confirmation) }

def run (hello : List UInt8) (es : List Event) : Watch :=
  es.foldl step { flow := { hello := hello } }

theorem run_snoc (hello : List UInt8) (es : List Event) (e : Event) :
    run hello (es ++ [e]) = step (run hello es) e := by
  rw [run, List.foldl_append]
  rfl

theorem flow_step_inject (w : Watch) (sent : Bool) :
    (step w (.inject sent)).flow = if w.pending then w.flow.inject sent else w.flow := by
  show (if w.pending then { w with flow := w.flow.inject sent, pending := false } else w).flow = _
  split <;> rfl

/-! ## What a packet can do -/

/-- The outbound SYN. -/
structure IsSyn (p : Packet) (isn : UInt32) : Prop where
  flags : p.flags &&& syn ≠ 0 ∧ p.flags &&& ack = 0
  seq : p.seq = isn

/-- The inbound SYN-ACK. -/
structure IsSynAck (p : Packet) (isn peer : UInt32) : Prop where
  flags : p.flags &&& (syn ||| ack) = syn ||| ack
  seq : p.seq = peer
  ack : p.ack = isn + 1

/-- An acknowledgement. -/
structure IsAck (p : Packet) (seq acked : UInt32) : Prop where
  flags : p.flags &&& ack ≠ 0 ∧ p.flags &&& syn = 0
  payload : p.payloadLen = 0
  seq : p.seq = seq
  ack : p.ack = acked

/-- No packet that ends a connection. -/
def Quiet (p : Packet) : Prop := p.flags &&& (fin ||| rst) = 0

/-- The forged ClientHello as it passes by. -/
def Forged (f : Flow) (p : Packet) (outbound : Bool) : Prop :=
  outbound = true ∧ f.sent = true ∧ p.seq = f.forgedSeq ∧ p.payloadLen = f.hello.length

/-- Everything `observe` can do. -/
inductive Observed (f : Flow) (p : Packet) (outbound : Bool) : Bool × Flow → Prop where
  | ended (h : f.finished = true) : Observed f p outbound (false, f)
  | fails (h : f.finished = false) : Observed f p outbound (false, f.finish (some .confirmation))
  | passes (h : f.finished = false) (hquiet : Quiet p)
      (hpayload : p.payloadLen = 0 ∨ Forged f p outbound) : Observed f p outbound (false, f)
  | syn (h : f.finished = false) (hquiet : Quiet p) (hpayload : p.payloadLen = 0)
      (hout : outbound = true) (hp : IsSyn p p.seq) (hsame : f.sawSYN = true → p.seq = f.isn) :
      Observed f p outbound (false, { f with isn := p.seq, sawSYN := true })
  | synAck (h : f.finished = false) (hquiet : Quiet p) (hpayload : p.payloadLen = 0)
      (hin : outbound = false) (hsaw : f.sawSYN = true) (hp : IsSynAck p f.isn p.seq)
      (hsame : f.sawSYNACK = true → p.seq = f.peerISN) :
      Observed f p outbound (false, { f with peerISN := p.seq, sawSYNACK := true })
  | third (h : f.finished = false) (hquiet : Quiet p) (hpayload : p.payloadLen = 0)
      (hout : outbound = true) (hsaw : f.sawSYNACK = true)
      (hp : IsAck p (f.isn + 1) (f.peerISN + 1)) (hfirst : f.scheduled = false) :
      Observed f p outbound (true, { f with scheduled := true })
  | confirms (h : f.finished = false) (hquiet : Quiet p) (hin : outbound = false)
      (hsent : f.sent = true) (hp : IsAck p (f.peerISN + 1) (f.isn + 1)) :
      Observed f p outbound (false, f.finish none)

theorem observed (f : Flow) (p : Packet) (outbound : Bool) :
    Observed f p outbound (f.observe p outbound) := by
  unfold Flow.observe
  refine iteInduction (fun h => .ended h) fun hfinished => ?_
  rw [Bool.not_eq_true] at hfinished
  refine iteInduction (fun _ => .fails hfinished) fun hquiet => ?_
  rw [not_not] at hquiet
  refine iteInduction (fun hforged => .passes hfinished hquiet (Or.inr hforged)) fun _ => ?_
  refine iteInduction (fun _ => .fails hfinished) fun hpayload => ?_
  rw [not_not] at hpayload
  refine iteInduction (fun hsyn => ?syn) fun _ => iteInduction (fun hsynAck => ?synAck) fun _ => ?_
  case syn =>
    refine iteInduction (fun _ => .fails hfinished) fun hsame => ?_
    rw [not_or, not_and, not_not, not_ne_iff] at hsame
    exact .syn hfinished hquiet hpayload hsyn.1 ⟨hsyn.2, rfl⟩ fun hsaw => (hsame.2 hsaw).symm
  case synAck =>
    refine iteInduction (fun _ => .fails hfinished) fun hsame => ?_
    rw [not_or, not_or, not_not, not_not, not_and, not_not] at hsame
    exact .synAck hfinished hquiet hpayload (Bool.not_eq_true _ ▸ hsynAck.1) hsame.1
      ⟨hsynAck.2, rfl, hsame.2.1⟩ fun hsaw => (hsame.2.2 hsaw).symm
  refine iteInduction (fun _ => .fails hfinished) fun hack => ?_
  rw [not_or, not_not] at hack
  refine iteInduction (fun hout => ?third) fun hin => iteInduction (fun hsent => ?confirms) fun _ =>
    .passes hfinished hquiet (Or.inl hpayload)
  case third =>
    refine iteInduction (fun _ => .fails hfinished) fun hsame => ?_
    rw [not_or, not_or, not_not, not_not, not_not] at hsame
    exact iteInduction (fun _ => .passes hfinished hquiet (Or.inl hpayload)) fun hfirst =>
      .third hfinished hquiet hpayload hout hsame.1 ⟨hack, hpayload, hsame.2.1, hsame.2.2⟩
        (Bool.not_eq_true _ ▸ hfirst)
  case confirms =>
    refine iteInduction (fun _ => .fails hfinished) fun hsame => ?_
    rw [not_or, not_not, not_not] at hsame
    exact .confirms hfinished hquiet (Bool.not_eq_true _ ▸ hin) hsent
      ⟨hack, hpayload, hsame.1, hsame.2⟩

/-! ## Finishing -/

variable {f : Flow}

theorem Flow.finish_of_finished (h : f.finished = true) (err : Option FlowError) :
    f.finish err = f :=
  if_pos h

variable {w : Watch}

theorem step_of_finished (h : w.flow.finished = true) (e : Event) : (step w e).flow = w.flow := by
  cases e with
  | packet p outbound =>
    show (w.flow.observe p outbound).2 = w.flow
    rw [Flow.observe, if_pos h]
  | inject sent =>
    rw [flow_step_inject]
    split
    · exact if_pos h
    · rfl
  | giveUp => exact Flow.finish_of_finished h _

variable {hello : List UInt8}

/-- Once finished, a flow stays as it is. -/
theorem run_of_finished {es : List Event} (h : (run hello es).flow.finished = true)
    (more : List Event) : (run hello (es ++ more)).flow = (run hello es).flow := by
  induction more using List.reverseRecOn with
  | nil => rw [List.append_nil]
  | append_singleton more e ih =>
    rw [← List.append_assoc, run_snoc, step_of_finished _ e, ih]
    rw [ih]
    exact h

/-! ## What the flags stand for -/

section History

variable (isn peer : UInt32) (es : List Event)

/-- The outbound SYN was seen; then the inbound SYN-ACK; then the outbound
acknowledgement; then the injection was sent. -/
def SawSyn : Prop := ∃ p, IsSyn p isn ∧ List.Sublist [.packet p true] es

def SawSynAck : Prop :=
  ∃ p q, IsSyn p isn ∧ IsSynAck q isn peer ∧ List.Sublist [.packet p true, .packet q false] es

def SawThird : Prop :=
  ∃ p q r, IsSyn p isn ∧ IsSynAck q isn peer ∧ IsAck r (isn + 1) (peer + 1) ∧
    List.Sublist [.packet p true, .packet q false, .packet r true] es

def SawSent : Prop :=
  ∃ p q r, IsSyn p isn ∧ IsSynAck q isn peer ∧ IsAck r (isn + 1) (peer + 1) ∧
    List.Sublist [.packet p true, .packet q false, .packet r true, .inject true] es

end History

variable {p : Packet}

section Extend

variable {isn peer : UInt32} {es : List Event}

theorem SawSyn.snoc (h : SawSyn isn es) (e : Event) : SawSyn isn (es ++ [e]) := by
  obtain ⟨p, hp, hl⟩ := h
  exact ⟨p, hp, hl.trans (List.sublist_append_left _ _)⟩

theorem SawSynAck.snoc (h : SawSynAck isn peer es) (e : Event) : SawSynAck isn peer (es ++ [e]) := by
  obtain ⟨p, q, hp, hq, hl⟩ := h
  exact ⟨p, q, hp, hq, hl.trans (List.sublist_append_left _ _)⟩

theorem SawThird.snoc (h : SawThird isn peer es) (e : Event) : SawThird isn peer (es ++ [e]) := by
  obtain ⟨p, q, r, hp, hq, hr, hl⟩ := h
  exact ⟨p, q, r, hp, hq, hr, hl.trans (List.sublist_append_left _ _)⟩

theorem SawSent.snoc (h : SawSent isn peer es) (e : Event) : SawSent isn peer (es ++ [e]) := by
  obtain ⟨p, q, r, hp, hq, hr, hl⟩ := h
  exact ⟨p, q, r, hp, hq, hr, hl.trans (List.sublist_append_left _ _)⟩

theorem sawSyn_snoc (hp : IsSyn p isn) : SawSyn isn (es ++ [.packet p true]) :=
  ⟨p, hp, List.sublist_append_right _ _⟩

theorem SawSyn.synAck {q : Packet} (h : SawSyn isn es) (hq : IsSynAck q isn peer) :
    SawSynAck isn peer (es ++ [.packet q false]) := by
  obtain ⟨p, hp, hl⟩ := h
  exact ⟨p, q, hp, hq, hl.append (List.Sublist.refl _)⟩

theorem SawSynAck.third {r : Packet} (h : SawSynAck isn peer es)
    (hr : IsAck r (isn + 1) (peer + 1)) : SawThird isn peer (es ++ [.packet r true]) := by
  obtain ⟨p, q, hp, hq, hl⟩ := h
  exact ⟨p, q, r, hp, hq, hr, hl.append (List.Sublist.refl _)⟩

theorem SawThird.sent (h : SawThird isn peer es) : SawSent isn peer (es ++ [.inject true]) := by
  obtain ⟨p, q, r, hp, hq, hr, hl⟩ := h
  exact ⟨p, q, r, hp, hq, hr, hl.append (List.Sublist.refl _)⟩

end Extend

/-- The flags of a flow, and the history they stand for. -/
structure Told (es : List Event) (w : Watch) : Prop where
  syn : w.flow.sawSYN = true → SawSyn w.flow.isn es
  synAck : w.flow.sawSYNACK = true → w.flow.sawSYN = true ∧ SawSynAck w.flow.isn w.flow.peerISN es
  third : w.flow.scheduled = true →
    w.flow.sawSYNACK = true ∧ SawThird w.flow.isn w.flow.peerISN es
  sent : w.flow.sent = true → w.flow.scheduled = true ∧ SawSent w.flow.isn w.flow.peerISN es
  pending : w.pending = true → w.flow.scheduled = true ∧ w.flow.sent = false
  candidates : w.candidates = if w.flow.scheduled then 1 else 0

/-- Nothing but the result differs. -/
structure Flow.Same (f g : Flow) : Prop where
  isn : g.isn = f.isn
  peerISN : g.peerISN = f.peerISN
  sawSYN : g.sawSYN = f.sawSYN
  sawSYNACK : g.sawSYNACK = f.sawSYNACK
  scheduled : g.scheduled = f.scheduled
  sent : g.sent = f.sent

theorem Flow.Same.refl (f : Flow) : f.Same f := ⟨rfl, rfl, rfl, rfl, rfl, rfl⟩

theorem Flow.same_finish (f : Flow) (err : Option FlowError) : f.Same (f.finish err) := by
  unfold Flow.finish
  split
  · exact .refl f
  · exact ⟨rfl, rfl, rfl, rfl, rfl, rfl⟩

theorem Told.same {es : List Event} {w' : Watch} (h : Told es w) (e : Event)
    (hflow : w.flow.Same w'.flow) (hpending : w'.pending = true → w.pending = true)
    (hcount : w'.candidates = w.candidates) : Told (es ++ [e]) w' := by
  obtain ⟨hisn, hpeer, hsyn, hsynAck, hthird, hsent⟩ := hflow
  constructor
  case syn =>
    rw [hsyn, hisn]
    exact fun hs => (h.syn hs).snoc e
  case synAck =>
    rw [hsynAck, hsyn, hisn, hpeer]
    exact fun hs => ⟨(h.synAck hs).1, (h.synAck hs).2.snoc e⟩
  case third =>
    rw [hthird, hsynAck, hisn, hpeer]
    exact fun hs => ⟨(h.third hs).1, (h.third hs).2.snoc e⟩
  case sent =>
    rw [hsent, hthird, hisn, hpeer]
    exact fun hs => ⟨(h.sent hs).1, (h.sent hs).2.snoc e⟩
  case pending =>
    rw [hthird, hsent]
    exact fun hp => h.pending (hpending hp)
  case candidates => rw [hcount, hthird, h.candidates]

/-- Flags that are not up yet. -/
theorem Told.synAck_false {es : List Event} (h : Told es w) (hs : w.flow.sawSYN = false) :
    w.flow.sawSYNACK = false := by
  by_contra hno
  rw [(h.synAck (Bool.not_eq_false _ ▸ hno)).1] at hs
  cases hs

theorem Told.scheduled_false {es : List Event} (h : Told es w) (hs : w.flow.sawSYNACK = false) :
    w.flow.scheduled = false := by
  by_contra hno
  rw [(h.third (Bool.not_eq_false _ ▸ hno)).1] at hs
  cases hs

theorem Told.sent_false {es : List Event} (h : Told es w) (hs : w.flow.scheduled = false) :
    w.flow.sent = false := by
  by_contra hno
  rw [(h.sent (Bool.not_eq_false _ ▸ hno)).1] at hs
  cases hs

theorem Told.pending_false {es : List Event} (h : Told es w) (hs : w.flow.scheduled = false) :
    w.pending = false := by
  by_contra hno
  rw [(h.pending (Bool.not_eq_false _ ▸ hno)).1] at hs
  cases hs

theorem told_packet {es : List Event} (h : Told es w) (p : Packet) (outbound : Bool) :
    Told (es ++ [.packet p outbound]) (step w (.packet p outbound)) := by
  have hobserved := observed w.flow p outbound
  show Told _ { flow := (w.flow.observe p outbound).2,
                pending := w.pending || (w.flow.observe p outbound).1,
                candidates := if (w.flow.observe p outbound).1 then w.candidates + 1
                  else w.candidates }
  generalize w.flow.observe p outbound = r at hobserved
  have hsame : ∀ g, w.flow.Same g → Told (es ++ [.packet p outbound])
      { flow := g, pending := w.pending || false,
        candidates := if false = true then w.candidates + 1 else w.candidates } := by
    intro g hg
    exact h.same _ hg (fun hp => by rwa [Bool.or_false] at hp) rfl
  cases hobserved with
  | ended | passes => exact hsame _ (.refl _)
  | fails | confirms => exact hsame _ (w.flow.same_finish _)
  | syn hf hquiet hpayload hout hp hseq =>
    cases hsaw : w.flow.sawSYN with
    | true => exact hsame _ ⟨hseq hsaw, rfl, hsaw.symm, rfl, rfl, rfl⟩
    | false =>
      have h2 := h.synAck_false hsaw
      have h3 := h.scheduled_false h2
      subst hout
      constructor
      case syn => exact fun _ => sawSyn_snoc hp
      case candidates => exact h.candidates
      all_goals simp [h2, h3, h.sent_false h3, h.pending_false h3]
  | synAck hf hquiet hpayload hin hsyn hp hseq =>
    cases hsaw : w.flow.sawSYNACK with
    | true => exact hsame _ ⟨rfl, hseq hsaw, rfl, hsaw.symm, rfl, rfl⟩
    | false =>
      have h3 := h.scheduled_false hsaw
      subst hin
      constructor
      case syn => exact fun hs => (h.syn hs).snoc _
      case synAck => exact fun _ => ⟨hsyn, (h.syn hsyn).synAck hp⟩
      case candidates => exact h.candidates
      all_goals simp [h3, h.sent_false h3, h.pending_false h3]
  | third hf hquiet hpayload hout hsaw hp hfirst =>
    have h4 := h.sent_false hfirst
    subst hout
    constructor
    case syn => exact fun hs => (h.syn hs).snoc _
    case synAck => exact fun hs => ⟨(h.synAck hs).1, (h.synAck hs).2.snoc _⟩
    case third => exact fun _ => ⟨hsaw, (h.synAck hsaw).2.third hp⟩
    case sent => exact fun hs => absurd (h4.symm.trans hs) (by decide)
    case pending => exact fun _ => ⟨rfl, h4⟩
    case candidates =>
      show w.candidates + 1 = 1
      rw [h.candidates, hfirst]
      rfl

theorem told_inject {es : List Event} (h : Told es w) (sent : Bool) :
    Told (es ++ [.inject sent]) (step w (.inject sent)) := by
  show Told _ (if w.pending then { w with flow := w.flow.inject sent, pending := false } else w)
  split
  · rename_i hpending
    obtain ⟨hscheduled, hnot⟩ := h.pending hpending
    unfold Flow.inject
    split
    · exact h.same _ (.refl _) (fun hp => (nomatch hp)) rfl
    · split
      · rename_i hsent
        subst hsent
        constructor
        case syn => exact fun hs => (h.syn hs).snoc _
        case synAck => exact fun hs => ⟨(h.synAck hs).1, (h.synAck hs).2.snoc _⟩
        case third => exact fun hs => ⟨(h.third hs).1, (h.third hs).2.snoc _⟩
        case sent => exact fun _ => ⟨hscheduled, (h.third hscheduled).2.sent⟩
        case pending => exact fun hp => (nomatch hp)
        case candidates => exact h.candidates
      · exact h.same _ (w.flow.same_finish _) (fun hp => (nomatch hp)) rfl
  · exact h.same _ (.refl _) id rfl

theorem told_run (hello : List UInt8) (es : List Event) : Told es (run hello es) := by
  induction es using List.reverseRecOn with
  | nil =>
    constructor
    case candidates => rfl
    all_goals exact fun hs => (nomatch hs)
  | append_singleton es e ih =>
    rw [run_snoc]
    cases e with
    | packet p outbound => exact told_packet ih p outbound
    | inject sent => exact told_inject ih sent
    | giveUp => exact ih.same _ (Flow.same_finish _ _) id rfl

/-! ## What stays fixed -/

/-- The sequence numbers that were seen, and the ClientHello, stay. -/
structure Flow.Extends (f g : Flow) : Prop where
  hello : g.hello = f.hello
  isn : f.sawSYN = true → g.sawSYN = true ∧ g.isn = f.isn
  peerISN : f.sawSYNACK = true → g.sawSYNACK = true ∧ g.peerISN = f.peerISN

theorem Flow.Extends.refl (f : Flow) : f.Extends f :=
  ⟨rfl, fun h => ⟨h, rfl⟩, fun h => ⟨h, rfl⟩⟩

theorem Flow.Extends.trans {g k : Flow} (h : f.Extends g) (h' : g.Extends k) : f.Extends k := by
  constructor
  case hello => exact h'.hello.trans h.hello
  case isn =>
    intro hs
    obtain ⟨hg, hisn⟩ := h.isn hs
    exact ⟨(h'.isn hg).1, (h'.isn hg).2.trans hisn⟩
  case peerISN =>
    intro hs
    obtain ⟨hg, hpeer⟩ := h.peerISN hs
    exact ⟨(h'.peerISN hg).1, (h'.peerISN hg).2.trans hpeer⟩

theorem Flow.extends_finish (f : Flow) (err : Option FlowError) : f.Extends (f.finish err) := by
  unfold Flow.finish
  split
  · exact .refl f
  · exact ⟨rfl, fun h => ⟨h, rfl⟩, fun h => ⟨h, rfl⟩⟩

theorem extends_step (w : Watch) (e : Event) : w.flow.Extends (step w e).flow := by
  cases e with
  | packet p outbound =>
    have hobserved := observed w.flow p outbound
    show w.flow.Extends (w.flow.observe p outbound).2
    generalize w.flow.observe p outbound = r at hobserved
    cases hobserved with
    | ended | passes => exact .refl _
    | fails | confirms => exact w.flow.extends_finish _
    | syn hf hquiet hpayload hout hp hseq =>
      exact ⟨rfl, fun hs => ⟨rfl, hseq hs⟩, fun hs => ⟨hs, rfl⟩⟩
    | synAck hf hquiet hpayload hin hsyn hp hseq =>
      exact ⟨rfl, fun hs => ⟨hs, rfl⟩, fun hs => ⟨rfl, hseq hs⟩⟩
    | third => exact ⟨rfl, fun hs => ⟨hs, rfl⟩, fun hs => ⟨hs, rfl⟩⟩
  | inject sent =>
    rw [flow_step_inject]
    split
    · unfold Flow.inject
      split
      · exact .refl _
      · split
        · exact ⟨rfl, fun hs => ⟨hs, rfl⟩, fun hs => ⟨hs, rfl⟩⟩
        · exact w.flow.extends_finish _
    · exact .refl _
  | giveUp => exact w.flow.extends_finish _

theorem extends_run (hello : List UInt8) (es more : List Event) :
    (run hello es).flow.Extends (run hello (es ++ more)).flow := by
  induction more using List.reverseRecOn with
  | nil =>
    rw [List.append_nil]
    exact .refl _
  | append_singleton more e ih =>
    rw [← List.append_assoc, run_snoc]
    exact ih.trans (extends_step _ e)

theorem run_hello (hello : List UInt8) (es : List Event) : (run hello es).flow.hello = hello :=
  (extends_run hello [] es).hello

/-! ## Confirmation -/

/-- A packet that did not end the flow. -/
theorem quiet_of_unfinished {outbound : Bool} (h : (f.observe p outbound).2.finished = false) :
    Quiet p ∧ (p.payloadLen = 0 ∨ Forged f p outbound) := by
  have hobserved := observed f p outbound
  generalize f.observe p outbound = r at hobserved h
  cases hobserved with
  | ended hf => exact absurd (hf.symm.trans h) (by decide)
  | fails hf | confirms hf hquiet hin hsent hp =>
    rw [Flow.finish, if_neg (by rw [hf]; decide)] at h
    cases h
  | passes hf hquiet hpayload => exact ⟨hquiet, hpayload⟩
  | syn hf hquiet hpayload | synAck hf hquiet hpayload | third hf hquiet hpayload =>
    exact ⟨hquiet, Or.inl hpayload⟩

/-- The packets before a flow finishes. -/
theorem quiet_of_run_unfinished {u v : List Event} {outbound : Bool}
    (h : (run hello (u ++ .packet p outbound :: v)).flow.finished = false) :
    Quiet p ∧ (p.payloadLen = 0 ∨ Forged (run hello u).flow p outbound) := by
  apply quiet_of_unfinished
  by_contra hf
  have hdone : (run hello (u ++ [.packet p outbound])).flow.finished = true := by
    rw [run_snoc]
    exact Bool.not_eq_false _ ▸ hf
  have hsplit : u ++ .packet p outbound :: v = (u ++ [.packet p outbound]) ++ v := by simp
  rw [hsplit, run_of_finished hdone, hdone] at h
  cases h

theorem Flow.err_finish (h : f.finished = false) (err : Option FlowError) :
    (f.finish err).err = err ∧ (f.finish err).finished = true := by
  rw [Flow.finish, if_neg (by rw [h]; decide)]
  exact ⟨rfl, rfl⟩

/-- Only one packet finishes a flow without error. -/
theorem confirms_of_step {e : Event} (h : w.flow.finished = false)
    (hdone : (step w e).flow.finished = true) (hok : (step w e).flow.err = none) :
    ∃ p, e = .packet p false ∧ Quiet p ∧ w.flow.sent = true ∧
      IsAck p (w.flow.peerISN + 1) (w.flow.isn + 1) := by
  have hfails : ¬(w.flow.finish (some .confirmation)).err = none := by
    rw [(Flow.err_finish h _).1]
    exact fun hno => (nomatch hno)
  cases e with
  | packet p outbound =>
    have hobserved := observed w.flow p outbound
    change (w.flow.observe p outbound).2.finished = true at hdone
    change (w.flow.observe p outbound).2.err = none at hok
    generalize w.flow.observe p outbound = r at hobserved hdone hok
    cases hobserved with
    | ended hf => exact absurd (hf.symm.trans h) (by decide)
    | fails hf => exact absurd hok hfails
    | passes hf | syn hf | synAck hf | third hf => exact absurd (hdone.symm.trans hf) (by decide)
    | confirms hf hquiet hin hsent hp =>
      subst hin
      exact ⟨p, rfl, hquiet, hsent, hp⟩
  | inject sent =>
    rw [flow_step_inject] at hdone hok
    cases hpending : w.pending with
    | false =>
      rw [hpending, if_neg Bool.false_ne_true] at hdone
      exact absurd (hdone.symm.trans h) (by decide)
    | true =>
      rw [hpending, if_pos rfl, Flow.inject, if_neg (by rw [h]; decide)] at hdone hok
      cases sent with
      | true => exact absurd (hdone.symm.trans h) (by decide)
      | false => exact absurd hok hfails
  | giveUp => exact absurd hok hfails

/-- A flow that finished without error did so at a packet. -/
theorem confirmation_of_run {es : List Event} (hdone : (run hello es).flow.finished = true)
    (hok : (run hello es).flow.err = none) :
    ∃ pre p rest, es = pre ++ .packet p false :: rest ∧ (run hello pre).flow.finished = false ∧
      (run hello pre).flow.sent = true ∧ Quiet p ∧
      IsAck p ((run hello pre).flow.peerISN + 1) ((run hello pre).flow.isn + 1) := by
  induction es using List.reverseRecOn with
  | nil => cases hdone
  | append_singleton es e ih =>
    cases hbefore : (run hello es).flow.finished with
    | true =>
      rw [run_of_finished hbefore] at hdone hok
      obtain ⟨pre, p, rest, rfl, hpre⟩ := ih hdone hok
      exact ⟨pre, p, rest ++ [e], by simp, hpre⟩
    | false =>
      rw [run_snoc] at hdone hok
      obtain ⟨p, rfl, hquiet, hsent, hp⟩ := confirms_of_step hbefore hdone hok
      exact ⟨es, p, [], rfl, hbefore, hsent, hquiet, hp⟩

/-- A handshake whose sequence numbers wrap around, with its injection. -/
def demoExchange : List Event :=
  [.packet ⟨0xffffffff, 0, syn, 0⟩ true, .packet ⟨50, 0, syn ||| ack, 0⟩ false,
    .packet ⟨0, 51, ack, 0⟩ true, .inject true, .packet ⟨51, 0, ack, 0⟩ false]

/-- **The handshake is confirmed only by the right exchange**, for every
interleaving of packets with the end of the injection.  One packet at most is
found to be the one to inject after.  A flow that finished without error saw
the outbound SYN, the inbound SYN-ACK, the outbound acknowledgement, the
injection sent and then the inbound acknowledgement of the handshake, in this
order, and before that no packet that ends the connection and no payload but
that of the injection.  And a finished flow stays as it is. -/
theorem run_confirmed (hello : List UInt8) (es : List Event) :
    let f := (run hello es).flow
    (run hello es).candidates ≤ 1 ∧
    (f.finished = true → f.err = none →
      ∃ pre conf rest p q r, es = pre ++ .packet conf false :: rest ∧
        IsSyn p f.isn ∧ IsSynAck q f.isn f.peerISN ∧ IsAck r (f.isn + 1) (f.peerISN + 1) ∧
        List.Sublist [.packet p true, .packet q false, .packet r true, .inject true] pre ∧
        IsAck conf (f.peerISN + 1) (f.isn + 1) ∧ Quiet conf ∧
        ∀ u x outbound v, pre = u ++ .packet x outbound :: v →
          Quiet x ∧ (x.payloadLen = 0 ∨
            (outbound = true ∧ .inject true ∈ u ∧ x.payloadLen = hello.length ∧
              x.seq = f.isn + 1 - UInt32.ofNat hello.length))) ∧
    (f.finished = true → ∀ more, (run hello (es ++ more)).flow = f) := by
  intro f
  refine ⟨?_, ?_, fun hdone more => run_of_finished hdone more⟩
  · rw [(told_run hello es).candidates]
    split <;> omega
  intro hdone hok
  obtain ⟨pre, conf, rest, hes, hopen, hsent, hquiet, hconf⟩ := confirmation_of_run hdone hok
  -- the sequence numbers are the same at the packet and at the end
  have htold := told_run hello pre
  have hsynAck := (htold.third (htold.sent hsent).1).1
  have hextends := extends_run hello pre (.packet conf false :: rest)
  rw [← hes] at hextends
  have hisn : f.isn = (run hello pre).flow.isn := (hextends.isn (htold.synAck hsynAck).1).2
  have hpeer : f.peerISN = (run hello pre).flow.peerISN := (hextends.peerISN hsynAck).2
  obtain ⟨p, q, r, hp, hq, hr, horder⟩ := (htold.sent hsent).2
  rw [hisn, hpeer]
  refine ⟨pre, conf, rest, p, q, r, hes, hp, hq, hr, horder, hconf, hquiet, ?_⟩
  intro u x outbound v hpre
  rw [hpre] at hopen
  obtain ⟨hx, hpayload⟩ := quiet_of_run_unfinished hopen
  refine ⟨hx, hpayload.imp_right ?_⟩
  rintro ⟨hout, hsentThen, hseq, hlen⟩
  -- the injection had been sent by then
  have hthen := told_run hello u
  obtain ⟨hscheduled, _, _, _, -, -, -, hsub⟩ := hthen.sent hsentThen
  have hsawThen := (hthen.synAck (hthen.third hscheduled).1).1
  have hsame := (extends_run hello u (.packet x outbound :: v)).isn hsawThen
  rw [← hpre] at hsame
  refine ⟨hout, hsub.subset (by simp), ?_, ?_⟩
  · rw [hlen, run_hello]
  · rw [hseq, Flow.forgedSeq, run_hello, hsame.2]

theorem demoExchange_confirmed :
    (run [22] demoExchange).flow.finished = true ∧ (run [22] demoExchange).flow.err = none ∧
      ∃ pre conf rest, demoExchange = pre ++ .packet conf false :: rest ∧ .inject true ∈ pre := by
  have hdone : (run [22] demoExchange).flow.finished = true := by decide
  have hok : (run [22] demoExchange).flow.err = none := by decide
  obtain ⟨pre, conf, rest, _, _, _, hes, -, -, -, horder, -⟩ :=
    (run_confirmed [22] demoExchange).2.1 hdone hok
  exact ⟨hdone, hok, pre, conf, rest, hes, horder.subset (by simp)⟩

end Caspian.Snispoof
