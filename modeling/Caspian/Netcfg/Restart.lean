import Caspian.Netcfg.Recovery

/-!
# An interrupted recovery

`Recover` records nothing while it runs, so after a kill every inverse it ran
is run again.  An inverse that was run is at rest (`Plan.AtRest`): running it
again does nothing, and no other inverse of the plan disturbs it.  The
exception is the inverse that puts an address back: once it was run, it is
refused.
-/

namespace Caspian.Netcfg

open Verified Verified.UndoLog

/-! ## What an inverse leaves alone -/

/-- From `c` to `c'` the inverse of a pair took objects away, an address it put
back apart, and put values back. -/
structure Pair.Withdraws (π : Pair) (c c' : Core) : Prop where
  addrs : (∀ dev pfx, π ≠ .strip dev pfx) → c'.addrs ⊆ c.addrs
  routes : c'.routes ⊆ c.routes
  rules : c'.rules.Sublist c.rules
  gone : ∀ name ∈ c'.ifaces, name ∈ c.ifaces
  stays : ∀ name ∈ c.ifaces, (∀ type, π ≠ .create name type) → name ∈ c'.ifaces
  knob : ∀ name, c'.sysctl.lookup name = c.sysctl.lookup name ∨
    ∃ value prev, π = .knob name value prev ∧ c'.sysctl.lookup name = some prev
  iface : ∀ name i, c'.ifaces.lookup name = some i → ∃ j, c.ifaces.lookup name = some j ∧
    (i.released = j.released ∨ i.released = false) ∧ (i.type = j.type ∨ i.type = "managed")

theorem Pair.Withdraws.refl (π : Pair) (c : Core) : π.Withdraws c c where
  addrs _ := Finset.Subset.refl _
  routes := Finset.Subset.refl _
  rules := List.Sublist.refl _
  gone _ h := h
  stays _ h _ := h
  knob _ := Or.inl rfl
  iface _ i h := ⟨i, h, Or.inl rfl, Or.inl rfl⟩

variable {π : Pair}

/-- Putting a value of an interface back withdraws. -/
theorem Pair.Withdraws.write {c : Core} {name : String} {i j : Iface}
    (hi : c.ifaces.lookup name = some i)
    (hj : (j.released = i.released ∨ j.released = false) ∧ (j.type = i.type ∨ j.type = "managed")) :
    π.Withdraws c { c with ifaces := c.ifaces.insert name j } where
  addrs _ := Finset.Subset.refl _
  routes := Finset.Subset.refl _
  rules := List.Sublist.refl _
  gone other h := ((Core.agree_insert hi).ifaces other).mp h
  stays other h _ := ((Core.agree_insert hi).ifaces other).mpr h
  knob _ := Or.inl rfl
  iface other x hx := by
    by_cases hn : other = name
    · subst hn
      obtain rfl : j = x := Option.some.inj ((Finmap.lookup_insert _).symm.trans hx)
      exact ⟨i, hi, hj⟩
    · rw [Finmap.lookup_insert_of_ne _ hn] at hx
      exact ⟨x, hx, Or.inl rfl, Or.inl rfl⟩

variable {d : Driver} {u : Effect}

theorem Pair.withdraws (hu : π.undo = some u) (c : Core) : π.Withdraws c (u.on d c).1 := by
  cases π with
  | firewall =>
    cases hu
    exact .refl _ c
  | knob name value prev =>
    cases hu
    refine { Pair.Withdraws.refl _ c with knob := fun other => ?_ }
    by_cases hn : other = name
    · subst hn
      exact Or.inr ⟨value, prev, rfl, Finmap.lookup_insert _⟩
    · exact Or.inl (Finmap.lookup_insert_of_ne _ hn)
  | create name type =>
    cases hu
    simp only [Effect.on]
    split
    · refine { Pair.Withdraws.refl _ c with gone := ?_, stays := ?_, iface := ?_ }
      · intro other hother
        exact (Finmap.mem_erase.mp hother).2
      · intro other hother hne
        refine Finmap.mem_erase.mpr ⟨?_, hother⟩
        rintro rfl
        exact hne type rfl
      · intro other i hi
        by_cases hn : other = name
        · subst hn
          rw [Finmap.lookup_erase] at hi
          cases hi
        · rw [Finmap.lookup_erase_ne hn] at hi
          exact ⟨i, hi, Or.inl rfl, Or.inl rfl⟩
    · exact .refl _ c
  | release name =>
    cases hu
    simp only [Effect.on]
    split
    · exact .refl _ c
    next i hi => exact .write hi ⟨Or.inr rfl, Or.inl rfl⟩
  | retype name type =>
    cases hu
    simp only [Effect.on]
    split
    · exact .refl _ c
    · split
      · exact .refl _ c
      next i hi => exact .write hi ⟨Or.inl rfl, Or.inr rfl⟩
  | down name =>
    cases hu
    rw [Effect.linkUp_core]
    exact .refl _ c
  | strip dev pfx =>
    cases hu
    simp only [Effect.on]
    split
    · exact .refl _ c
    · split
      · exact .refl _ c
      · exact { Pair.Withdraws.refl (.strip dev pfx) c with
          addrs := fun h => absurd rfl (h dev pfx) }
  | addr dev pfx =>
    cases hu
    simp only [Effect.on]
    split
    · exact .refl _ c
    · split
      · exact { Pair.Withdraws.refl (.addr dev pfx) c with
          addrs := fun _ => Finset.erase_subset _ _ }
      · exact .refl _ c
  | route table pfx table' =>
    cases hu
    simp only [Effect.on]
    split
    · exact { Pair.Withdraws.refl (.route table pfx table') c with
        routes := Finset.erase_subset _ _ }
    · exact .refl _ c
  | rule r =>
    cases hu
    simp only [Effect.on]
    split
    · exact { Pair.Withdraws.refl (.rule r) c with rules := List.erase_sublist }
    · exact .refl _ c
  | _ => cases hu

/-! ## Inverses at rest -/

/-- An inverse that was run finds nothing to do. -/
theorem Pair.idle_after {c : Core} (hu : π.undo = some u) (hadd : ∀ dev pfx, π ≠ .strip dev pfx)
    (hallowed : π.Allowed d) (honce : ∀ r, π = .rule r → c.rules.count r ≤ 1) :
    π.Idle (u.on d.unwalled c).1 := by
  cases π with
  | firewall | down name => trivial
  | knob name value prev =>
    cases hu
    exact Finmap.lookup_insert _
  | create name type =>
    cases hu
    simp only [Pair.Idle, Effect.on]
    split
    · exact Finmap.notMem_erase_self
    next hn => exact hn
  | release name =>
    cases hu
    simp only [Pair.Idle, Pair.Ready, Effect.on]
    split
    next hi =>
      intro i hi'
      rw [hi] at hi'
      cases hi'
    next i hi =>
      intro j hj
      rw [Finmap.lookup_insert] at hj
      rw [← Option.some.inj hj]
  | retype name type =>
    cases hu
    have hd : d.unwalled.setType = "" := hallowed
    simp only [Pair.Idle, Pair.Ready, Effect.on, hd, ne_eq, not_true, if_false]
    split
    next hi =>
      intro i hi'
      rw [hi] at hi'
      cases hi'
    next i hi =>
      intro j hj
      rw [Finmap.lookup_insert] at hj
      rw [← Option.some.inj hj]
  | strip dev pfx => exact absurd rfl (hadd dev pfx)
  | addr dev pfx =>
    cases hu
    simp only [Pair.Idle, Effect.on]
    split
    next hd => exact fun h => absurd h hd
    · split
      · exact fun _ => Finset.notMem_erase _ _
      next ha => exact fun _ => ha
  | route table pfx table' =>
    cases hu
    simp only [Pair.Idle, Effect.on]
    split
    · exact Finset.notMem_erase _ _
    next hr => exact hr
  | rule r =>
    cases hu
    simp only [Pair.Idle, Effect.on]
    split
    · have hcount := honce r rfl
      rw [← List.count_eq_zero, List.count_erase_self]
      omega
    next hr => exact hr
  | _ => cases hu

/-- An inverse with nothing to do is left so by another that puts no address
back. -/
theorem Pair.Idle.kept {π' : Pair} {c c' : Core} (h : π.Idle c) (hw : π'.Withdraws c c')
    (hadd : ∀ dev pfx, π' ≠ .strip dev pfx)
    (hsame : ∀ name v v' prev prev', π = .knob name v prev → π' = .knob name v' prev' → prev' = prev) :
    π.Idle c' := by
  cases π with
  | knob name value prev =>
    rcases hw.knob name with heq | ⟨value', prev', hπ', hlook⟩
    · exact heq.trans h
    · rw [hsame name value value' prev prev' rfl hπ'] at hlook
      exact hlook
  | create name type => exact fun hn => h (hw.gone name hn)
  | release name =>
    intro i hi
    obtain ⟨j, hj, hrel, _⟩ := hw.iface name i hi
    rcases hrel with heq | hfalse
    · rw [heq]
      exact h j hj
    · exact hfalse
  | retype name type =>
    intro i hi
    obtain ⟨j, hj, _, htype⟩ := hw.iface name i hi
    rcases htype with heq | hmanaged
    · rw [heq]
      exact h j hj
    · exact hmanaged
  | strip dev pfx => exact h
  | addr dev pfx => exact fun hd ha => h (hw.gone dev hd) (hw.addrs hadd ha)
  | route table pfx table' => exact fun hr => h (hw.routes hr)
  | rule r => exact fun hr => h (hw.rules.subset hr)
  | _ => trivial

namespace Plan

variable (p : Plan) (current : Readings)

/-- An entry of a change of the plan that was made: the interface its inverse
writes to is there, and the rule it deletes is there at most once. -/
def Made (e : Entry) (c : Core) : Prop :=
  ∃ q ∈ p.paired current, e.undo = q.1.undo ∧ q.1.undo.isZero = false ∧ q.2.Standing c ∧
    ∀ r, q.2 = .rule r → c.rules.count r ≤ 1

/-- An entry whose inverse was run and has nothing more to do. -/
def AtRest (e : Entry) (c : Core) : Prop :=
  ∃ q ∈ p.paired current, e.undo = q.1.undo ∧ q.1.undo.isZero = false ∧ q.2.Standing c ∧
    q.2.Idle c

end Plan

/-- The inverse puts an address back. -/
def Entry.PutsBack (e : Entry) : Prop := ∃ dev pfx, effect e.undo = .addAddr dev pfx

variable {q : Step × Pair}

section Rest

variable {p : Plan} {current : Readings} {k : SimulatedKernel} {e e' : Entry} {c c' : Core}

/-- What an inverse of the plan is, and where it leads if it is not refused. -/
theorem Plan.undo_moves (hp : Planned p) (hy : p.Yields current k) (hq : q ∈ p.paired current)
    (hundo : e.undo = q.1.undo) (hz : q.1.undo.isZero = false)
    (h : undoCore k.driver e.undo c = some c') :
    ∃ u, q.2.undo = some u ∧ effect e.undo = u ∧ c' = (u.on k.driver.unwalled c).1 := by
  obtain ⟨his, hstep, _⟩ := p.mem_paired current hp.tun_ne hq
  obtain ⟨u, hu⟩ := his.undo_some hz
  have heff : effect e.undo = u := by
    rw [hundo]
    exact his.undo_eq u hu (hy.valid q.1 hstep hz)
  refine ⟨u, hu, heff, ?_⟩
  rw [undoCore_eq h, heff]

theorem not_strip (hu : π.undo = some u) (heff : effect e.undo = u) (hno : ¬e.PutsBack) :
    ∀ dev pfx, π ≠ .strip dev pfx := by
  rintro dev pfx rfl
  exact hno ⟨dev, pfx, heff.trans (Option.some.inj hu).symm⟩

/-- No inverse of the plan deletes an interface another one writes to. -/
theorem Plan.standing_kept (hp : Planned p) {q' : Step × Pair} (hq : q ∈ p.paired current)
    (hq' : q' ∈ p.paired current) (hw : q'.2.Withdraws c c') (h : q.2.Standing c) :
    q.2.Standing c' := by
  have horigin := p.pairs_origin current q.2 (p.mem_paired current hp.tun_ne hq).2.2
  have horigin' := p.pairs_origin current q'.2 (p.mem_paired current hp.tun_ne hq').2.2
  have hno : ∀ {name type}, q'.2 = .create name type →
      p.hotspotTakenOver = false ∧ p.hotspotManager ≠ .networkManager := by
    intro name type hcreate
    rw [hcreate] at horigin'
    exact ⟨(hp.shape horigin'.1).1, (hp.shape horigin'.1).2.1⟩
  cases hπ : q.2 with
  | release name =>
    rw [hπ] at h horigin
    exact hw.stays name h fun type hcreate => (hno hcreate).2 horigin.1
  | down name | retype name type =>
    rw [hπ] at h horigin
    refine hw.stays name h fun type hcreate => ?_
    have := (hno hcreate).1
    rw [horigin.1] at this
    cases this
  | _ => trivial

theorem Plan.Made.kept (hp : Planned p) (hy : p.Yields current k) (he' : p.Made current e' c)
    (h : undoCore k.driver e'.undo c = some c') (he : p.Made current e c) :
    p.Made current e c' := by
  obtain ⟨q', hq', hundo', hz', _⟩ := he'
  obtain ⟨u, hu, _, rfl⟩ := Plan.undo_moves hp hy hq' hundo' hz' h
  have hw := Pair.withdraws (d := k.driver.unwalled) hu c
  obtain ⟨q, hq, hundo, hz, hstand, honce⟩ := he
  exact ⟨q, hq, hundo, hz, Plan.standing_kept hp hq hq' hw hstand,
    fun r hr => (hw.rules.count_le r).trans (honce r hr)⟩

theorem Plan.Made.rests (hp : Planned p) (hy : p.Yields current k) (he : p.Made current e c)
    (hno : ¬e.PutsBack) (h : undoCore k.driver e.undo c = some c') :
    p.AtRest current e c' := by
  obtain ⟨q, hq, hundo, hz, hstand, honce⟩ := he
  obtain ⟨u, hu, heff, rfl⟩ := Plan.undo_moves hp hy hq hundo hz h
  have hw := Pair.withdraws (d := k.driver.unwalled) hu c
  have hallowed := hy.allowed (p.mem_paired current hp.tun_ne hq).2.2
  exact ⟨q, hq, hundo, hz, Plan.standing_kept hp hq hq hw hstand,
    Pair.idle_after hu (not_strip hu heff hno) hallowed honce⟩

theorem Plan.AtRest.kept (hp : Planned p) (hy : p.Yields current k) (he' : p.Made current e' c)
    (hno : ¬e'.PutsBack) (h : undoCore k.driver e'.undo c = some c')
    (he : p.AtRest current e c) : p.AtRest current e c' := by
  obtain ⟨q', hq', hundo', hz', _⟩ := he'
  obtain ⟨u, hu, heff, rfl⟩ := Plan.undo_moves hp hy hq' hundo' hz' h
  have hw := Pair.withdraws (d := k.driver.unwalled) hu c
  obtain ⟨q, hq, hundo, hz, hstand, hidle⟩ := he
  refine ⟨q, hq, hundo, hz, Plan.standing_kept hp hq hq' hw hstand,
    hidle.kept hw (not_strip hu heff hno) ?_⟩
  intro name v v' prev prev' hπ hπ'
  have horigin := p.pairs_origin current q.2 (p.mem_paired current hp.tun_ne hq).2.2
  have horigin' := p.pairs_origin current q'.2 (p.mem_paired current hp.tun_ne hq').2.2
  rw [hπ] at horigin
  rw [hπ'] at horigin'
  exact Option.some.inj (horigin'.2.symm.trans horigin.2)

/-- **Running an inverse at rest again does nothing.** -/
theorem Plan.AtRest.still (hp : Planned p) (hy : p.Yields current k)
    (he : p.AtRest current e c) : undoCore k.driver e.undo c = some c := by
  obtain ⟨q, hq, hundo, hz, hstand, hidle⟩ := he
  obtain ⟨his, hstep, hπ⟩ := p.mem_paired current hp.tun_ne hq
  rw [hundo]
  exact his.undo_still_runs hz (hy.valid q.1 hstep hz) hidle (hy.allowed hπ) hstand

end Rest

/-! ## Where a replay was killed -/

/-- The entries in the order `replay` takes them. -/
def replayOrder (es : List Entry) : List Entry := passOne es ++ passTwo es

theorem turns_snd (es : List Entry) : (turns es).map Prod.snd = replayOrder es := by
  simp [turns, replayOrder, Function.comp_def]

variable {es : List Entry}

theorem mem_replayOrder {e : Entry} : e ∈ replayOrder es ↔ e ∈ liveOf es := by
  rw [replayOrder, passOne_eq, passTwo_eq, List.mem_append, List.mem_filter, List.mem_filter]
  by_cases h : e.op = opNft <;> simp [h]

theorem replayOrder_of_liveOf {es' : List Entry} {keep : Entry → Bool}
    (h : liveOf es' = (liveOf es).filter keep) :
    replayOrder es' = (replayOrder es).filter keep := by
  rw [replayOrder, replayOrder, passOne_eq, passOne_eq, passTwo_eq, passTwo_eq, h,
    List.filter_append]
  simp only [List.filter_filter, Bool.and_comm]

/-- Unwinding in the order of the two passes. -/
theorem unwind_replayOrder (h : Undoable es) (d : Driver) (c : Core) :
    unwind (fun e : Entry => undoCore d e.undo) (replayOrder es) c =
      unwind (undoCore d) (undosOf es) c := by
  have htwo : ∀ c', unwind (fun e : Entry => undoCore d e.undo) (passTwo es) c' = some c' :=
    fun c' => unwind_rest fun e he => undoCore_loadRules (passTwo_loads h e he) c'
  rw [replayOrder, unwind_append, unwind_passOne h]
  cases unwind (undoCore d) (undosOf es) c with
  | none => rfl
  | some c' => exact htwo c'

theorem OpenLinks.mono {es' : List Entry} {k : SimulatedKernel} (h : OpenLinks es k)
    (hsub : ∀ e ∈ es', e ∈ es) : OpenLinks es' k := by
  intro e he name hlink
  obtain ⟨hwall, hcalm⟩ := h e (hsub e he) name hlink
  exact ⟨hwall, fun e' he' => hcalm e' (hsub e' he')⟩

/-- The links stay open while inverses are run. -/
theorem OpenLinks.run {k : SimulatedKernel} (h : OpenLinks es k) {e : Entry} (he : e ∈ es) :
    OpenLinks es (k.run e.undo).1 := by
  intro e' he' name hlink
  obtain ⟨hwall, hcalm⟩ := h e' he' name hlink
  refine ⟨?_, hcalm⟩
  rw [(k.run_follows e.undo).wall name (hcalm e he), hwall]

theorem openLinks_replayOrder {k : SimulatedKernel} (hu : Undoable es)
    (h : OpenLinks (passOne es) k) : OpenLinks (replayOrder es) k := by
  have hcalm : ∀ e ∈ passTwo es, ∀ name, (effect e.undo).Calm name := by
    intro e he name
    rw [passTwo_loads hu e he]
    trivial
  intro e he name hlink
  rcases List.mem_append.mp he with he | he
  · obtain ⟨hwall, hones⟩ := h e he name hlink
    refine ⟨hwall, fun e' he' => ?_⟩
    rcases List.mem_append.mp he' with he' | he'
    · exact hones e' he'
    · exact hcalm e' he' name
  · rw [passTwo_loads hu e he] at hlink
    cases hlink

/-- An inverse that is not refused is recorded as undone. -/
theorem undoOne_journal {e : Entry} {r : Replay SimulatedKernel} {c : Core}
    (hq : effect e.undo ≠ .query) (h : undoAt r.machine.driver e.undo r.machine.toCore = some c) :
    (undoOne SimulatedKernel.run e r).journal = r.journal.map fun j => j.undone e.seq := by
  have hreply := (r.machine.run_follows e.undo).reply hq
  unfold undoAt at h
  simp only [← hreply] at h
  unfold undoOne
  simp only
  cases hgone : alreadyGone e.undo (r.machine.run e.undo).2 with
  | true => simp
  | false =>
    rw [hgone] at h
    cases herr : (r.machine.run e.undo).2.2 with
    | none => simp
    | some msg =>
      rw [herr] at h
      simp at h

/-- The journal in use grows with every record. -/
theorem Journal.undone_ne (j : Journal) (seq : Int) : j.undone seq ≠ j := by
  intro h
  have hlen := congrArg (fun j => j.records.length) h
  simp [undone, mark, write] at hlen

/-- The inverses run that no record shows as undone: those in `recorded` are in
the journal in use, if there is one. -/
def unrecorded (j : Option Journal) (recorded pending : List Entry) : List Entry :=
  match j with
  | none => recorded ++ pending
  | some _ => pending

/-- A replay that began in `st` was killed after it had recorded `done` as
undone and had run `pending`. -/
structure Halt.After (h : Halt SimulatedKernel) (rs : List Record) (ran : List Entry)
    (st : Replay SimulatedKernel) (done pending L : List Entry) : Prop where
  core : unwind (fun e : Entry => undoCore st.machine.driver e.undo) (done ++ pending)
    st.machine.toCore = some h.machine.toCore
  driver : h.machine.driver.unwalled = st.machine.driver.unwalled
  open_ : OpenLinks L h.machine
  records : h.records = onDisk rs (st.journal.map fun j => j.recordUndone done)
  ran_eq : h.ran = ran ++ unrecorded st.journal done pending

/-- **Where a replay that nothing refuses can be killed.** -/
theorem mem_turnVisits {rs : List Record} {ran : List Entry} {ts : List (Bool × Entry)}
    {r : Replay SimulatedKernel} {c : Core} {L : List Entry} (hsub : ∀ t ∈ ts, t.2 ∈ L)
    (hq : NoQuery L) (hopen : OpenLinks L r.machine) (hfail : r.report.failed = 0)
    (hun : unwind (fun e : Entry => undoCore r.machine.driver e.undo) (ts.map Prod.snd)
      r.machine.toCore = some c) :
    ∀ h ∈ turnVisits SimulatedKernel.run rs ran ts r, ∃ done pending rest,
      ts.map Prod.snd = done ++ pending ++ rest ∧ h.After rs ran r done pending L := by
  induction ts generalizing ran r with
  | nil =>
    intro h hh
    obtain rfl := List.mem_singleton.mp hh
    refine ⟨[], [], [], rfl, rfl, rfl, hopen, ?_, ?_⟩
    · cases r.journal <;> rfl
    · cases r.journal <;> simp [unrecorded]
  | cons t ts ih =>
    have ht : t.2 ∈ L := hsub t List.mem_cons_self
    have hturn : replayTurn SimulatedKernel.run t r = undoOne SimulatedKernel.run t.2 r := by
      unfold replayTurn undoFirewall
      simp [hfail]
    have hwall : ∀ name, effect t.2.undo = .linkUp name →
        r.machine.driver.linkWall name = none := fun name hn => (hopen t.2 ht name hn).1
    rw [List.map_cons, unwind_cons] at hun
    cases hu : undoCore r.machine.driver t.2.undo r.machine.toCore with
    | none =>
      simp only [hu] at hun
      cases hun
    | some c₁ =>
      simp only [hu] at hun
      have hat : undoAt r.machine.driver t.2.undo r.machine.toCore = some c₁ :=
        (undoAt_eq hwall).trans hu
      obtain ⟨hmachine, hspec⟩ := undoOne_spec t.2 r (hq t.2 ht)
      rw [hat] at hspec
      obtain ⟨hcore, _, hfailed⟩ := hspec
      have hjournal := undoOne_journal (hq t.2 ht) hat
      have hdriver := undoOne_driver t.2 r (hq t.2 ht)
      have hopen' : OpenLinks L (undoOne SimulatedKernel.run t.2 r).machine := by
        rw [hmachine]
        exact hopen.run ht
      intro h hh
      simp only [turnVisits, hfail, lt_irrefl, decide_false, Bool.and_false,
        Bool.false_eq_true, if_false, hturn, List.mem_cons] at hh
      rcases hh with rfl | rfl | hh
      · refine ⟨[], [], t.2 :: ts.map Prod.snd, rfl, rfl, rfl, hopen, ?_, ?_⟩
        · cases r.journal <;> rfl
        · cases r.journal <;> simp [unrecorded]
      · refine ⟨[], [t.2], ts.map Prod.snd, rfl, ?_, ?_, hopen.run ht, ?_, ?_⟩
        · rw [← hmachine, hcore]
          simp only [List.nil_append, unwind_cons, hu]
          rfl
        · rw [← hmachine]
          exact hdriver
        · cases r.journal <;> rfl
        · cases r.journal <;> rfl
      · have hrest := ih (fun t' ht' => hsub t' (List.mem_cons_of_mem _ ht')) hopen'
          (hfailed.trans hfail) (by rw [undoCore_congr hdriver, hcore]; exact hun) h hh
        obtain ⟨done, pending, rest, hsplit, hafter⟩ := hrest
        refine ⟨t.2 :: done, pending, rest, ?_, ?_, ?_, hafter.open_, ?_, ?_⟩
        · rw [List.map_cons, hsplit]
          rfl
        · have hc := hafter.core
          rw [undoCore_congr hdriver, hcore] at hc
          simp only [List.cons_append, unwind_cons, hu]
          exact hc
        · exact hafter.driver.trans hdriver
        · rw [hafter.records, hjournal]
          cases r.journal <;> rfl
        · rw [hafter.ran_eq, hjournal]
          cases r.journal with
          | none => simp [unrecorded]
          | some j => simp [unrecorded, Journal.undone_ne]

/-! ## A complete run -/

/-- What is known of a world in which a plan was applied. -/
structure Plan.Applied (p : Plan) (current : Readings) (k : SimulatedKernel)
    (w : World SimulatedKernel) : Prop where
  driver : w.machine.driver.unwalled = k.driver.unwalled
  ordered : w.journal.Ordered
  undoable : Undoable w.journal.entries
  reversible : Reversible k.driver k.toCore w
  made : ∀ e ∈ liveOf w.journal.entries, p.Made current e w.machine.toCore

section Applied

variable {p : Plan} {current : Readings} {k : SimulatedKernel} {w w' : World SimulatedKernel}

theorem Plan.Applied.fresh (p : Plan) (current : Readings) (k : SimulatedKernel) :
    p.Applied current k (World.fresh k) where
  driver := rfl
  ordered := Journal.ordered_empty
  undoable := ⟨nofun, nofun⟩
  reversible := Reversible.fresh k
  made := nofun

theorem Plan.Applied.ask {s : Step} (h : p.Applied current k w) (hs : s.Is π) :
    p.Applied current k { w with machine := (queryPre SimulatedKernel.run s w.machine).1 } := by
  obtain ⟨hcore, hdriver⟩ := hs.ask w.machine
  refine ⟨?_, h.ordered, h.undoable, h.reversible.ask hs, ?_⟩
  · rw [hdriver]
    exact h.driver
  · rw [hcore]
    exact h.made

/-- A rule is added only where it is not: no change brings a rule in twice. -/
theorem Pair.once_run {c : Core} (hok : (π.run.on d c).2.2 = none) {r : SimRule}
    (h : π = .rule r ∨ c.rules.count r ≤ 1) : (π.run.on d c).1.rules.count r ≤ 1 := by
  by_cases hπ : ∃ r', π = .rule r'
  · obtain ⟨r', rfl⟩ := hπ
    simp only [Pair.run, Effect.on] at hok ⊢
    by_cases hmem : r' ∈ c.rules
    · simp [hmem, simFail] at hok
    · rw [if_neg hmem, List.count_append]
      by_cases hr : r' = r
      · subst hr
        simp [List.count_eq_zero.mpr hmem]
      · have hle : c.rules.count r ≤ 1 := h.resolve_left fun heq => hr (Pair.rule.inj heq)
        simpa [hr] using hle
  · have hle : c.rules.count r ≤ 1 := h.resolve_left fun heq => hπ ⟨r, heq⟩
    have hsame : (π.run.on d c).1.rules = c.rules := by
      cases π with
      | rule r' => exact absurd ⟨r', rfl⟩ hπ
      | _ =>
        simp only [Pair.run, Effect.on]
        try (repeat' split) <;> rfl
    rw [hsame]
    exact hle

/-- A change that was made stays made while others are. -/
theorem Plan.Made.run {s : Step} {e : Entry} {c : Core} (h : p.Made current e c) (hs : s.Is π)
    (hok : ((effect s.run).on d c).2.2 = none) : p.Made current e ((effect s.run).on d c).1 := by
  obtain ⟨q, hq, hundo, hz, hstand, honce⟩ := h
  refine ⟨q, hq, hundo, hz, ?_, ?_⟩
  · exact hstand.mono fun name hn => hs.mem_run_ifaces.mpr (Or.inl hn)
  · intro r hr
    have hpair := hs.run_eq (valid_of_ok hok)
    rw [hpair] at hok ⊢
    exact Pair.once_run hok (Or.inr (honce r hr))

/-- The interface a change was made to is there. -/
theorem Pair.standing_of_ok {c : Core} (hok : (π.run.on d c).2.2 = none)
    (hdown : ∀ name, π = .down name → name ∈ c.ifaces) : π.Standing c := by
  cases π with
  | release name =>
    by_contra hn
    simp [Pair.run, Effect.on, Finmap.lookup_eq_none.mpr hn, simFail] at hok
  | down name => exact hdown name rfl
  | retype name type =>
    by_contra hn
    simp only [Pair.run, Effect.on, Finmap.lookup_eq_none.mpr hn] at hok
    split at hok <;> simp [simFail] at hok
  | _ => trivial

/-- **A step that did not fail keeps the plan applied.** -/
theorem Plan.Applied.runStep (h : p.Applied current k w) (hp : Planned p) (hy : p.Yields current k)
    (hthere : p.hotspotTakenOver = true → p.hotspot ∈ k.ifaces) (hq : q ∈ p.paired current)
    (hstop : (runStep SimulatedKernel.run q.1 w).stop = none) :
    p.Applied current k (runStep SimulatedKernel.run q.1 w).world := by
  obtain ⟨hs, hstep, hπ⟩ := p.mem_paired current hp.tun_ne hq
  have hfollows := w.machine.run_follows q.1.run
  have hreply := hs.reply_run w.machine
  have hes := entries_runStep SimulatedKernel.run hs.run_isZero h.ordered
  have hlog := hs.logs_runStep h.ordered
  have hdriver := hlog.driver.trans h.driver
  have hundo := hlog.undoable hs h.undoable
  have hskip : (w.machine.run q.1.run).2.2.isSome = true →
      (verdict q.1.run (w.machine.run q.1.run).2).phase = .preexisting →
      p.Applied current k (Netcfg.runStep SimulatedKernel.run q.1 w).world := by
    intro hfail hphase
    have hcore : (w.machine.run q.1.run).1.toCore = w.machine.toCore := by
      rw [hreply] at hfail
      rw [hfollows.core]
      exact Effect.on_failed _ _ _ hfail
    rw [hphase] at hes hlog
    refine ⟨hdriver, hlog.ordered, hundo, h.reversible.settled hlog rfl hcore, ?_⟩
    rw [hes, liveOf_append_settled (by rw [needsUndo_entry]; rfl)]
    show ∀ e ∈ liveOf w.journal.entries, p.Made current e (w.machine.run q.1.run).1.toCore
    rw [hcore]
    exact h.made
  cases hv : verdict q.1.run (w.machine.run q.1.run).2 with
  | failed msg => simp [Netcfg.runStep, hv, stopError] at hstop
  | gone => exact hskip (verdict_gone (Or.inl hv)) (by rw [hv]; rfl)
  | existed => exact hskip (verdict_gone (Or.inr hv)) (by rw [hv]; rfl)
  | done =>
    rw [hv] at hes hlog
    have hok := verdict_done hv
    have hokc : ((effect q.1.run).on w.machine.driver w.machine.toCore).2.2 = none := by
      rw [← hreply]
      exact hok
    have hokπ := hokc
    rw [hs.run_eq (valid_of_ok hokc)] at hokπ
    have hstand : q.2.Standing w.machine.toCore := by
      refine Pair.standing_of_ok hokπ fun name hname => ?_
      have horigin := p.pairs_origin current q.2 hπ
      rw [hname] at horigin
      rw [horigin.2.2]
      exact h.reversible.names _ (hthere horigin.1)
    have hsafe : q.1.Safe k.driver w.machine.toCore q.2 :=
      ⟨hy.valid q.1 hstep, p.matched_of_origin current hy.keyword hπ, hy.allowed hπ, hstand⟩
    refine ⟨hdriver, hlog.ordered, hundo,
      h.reversible.pushRun h.driver hs hsafe rfl hlog rfl (Or.inl hok), ?_⟩
    show ∀ e ∈ liveOf (Netcfg.runStep SimulatedKernel.run q.1 w).world.journal.entries,
      p.Made current e (w.machine.run q.1.run).1.toCore
    rw [hes, hfollows.core]
    have hold : ∀ e ∈ liveOf w.journal.entries,
        p.Made current e ((effect q.1.run).on w.machine.driver w.machine.toCore).1 :=
      fun e he => (h.made e he).run hs hokc
    have hneeds := needsUndo_entry q.1 (w.journal.seq + 1) Verdict.done.phase
    cases hz : q.1.undo.isZero with
    | true =>
      rw [hz] at hneeds
      rw [liveOf_append_settled (hneeds.trans (by rfl))]
      exact hold
    | false =>
      rw [hz] at hneeds
      rw [liveOf_append_live (hneeds.trans (by rfl))]
      intro e he
      rcases List.mem_cons.mp he with rfl | he
      · refine ⟨q, hq, rfl, hz, ?_, ?_⟩
        · exact hstand.mono fun name hn => hs.mem_run_ifaces.mpr (Or.inl hn)
        · intro r hr
          rw [hs.run_eq (valid_of_ok hokc)]
          exact Pair.once_run hokπ (Or.inl hr)
      · exact hold e he

/-- **A complete `Apply` leaves the plan applied.** -/
theorem Plan.applied_of_apply (digest : String → String) (hp : Planned p)
    (hy : p.Yields current k) (hthere : p.hotspotTakenOver = true → p.hotspot ∈ k.ifaces)
    (hdone : (apply digest SimulatedKernel.run (p.linuxSteps current)
      (World.fresh k)).2.2 = none) :
    p.Applied current k
      (apply digest SimulatedKernel.run (p.linuxSteps current) (World.fresh k)).1 := by
  have hsource : ∀ s ∈ p.linuxSteps current, ∃ q ∈ p.paired current, q.1 = s := by
    intro s hs
    rw [← p.paired_fst current hp.tun_ne] at hs
    exact List.mem_map.mp hs
  have hall := applyLoop_complete digest SimulatedKernel.run
    (I := fun l w => (∀ s ∈ l, ∃ q ∈ p.paired current, q.1 = s) ∧ p.Applied current k w)
    (fun s l w h => ⟨fun s' hs' => h.1 s' (List.mem_cons_of_mem _ hs'), h.2⟩)
    (fun s l w h => ?_) (fun s l w h hz hstop => ?_)
    ⟨hsource, Plan.Applied.fresh p current k⟩ hdone
  · exact hall.2
  · obtain ⟨q, hq, rfl⟩ := h.1 s List.mem_cons_self
    exact ⟨h.1, h.2.ask (p.mem_paired current hp.tun_ne hq).1⟩
  · obtain ⟨q, hq, rfl⟩ := h.1 s List.mem_cons_self
    exact ⟨fun s' hs' => h.1 s' (List.mem_cons_of_mem _ hs'),
      h.2.runStep hp hy hthere hq hstop⟩

end Applied

/-! ## The second recovery -/

/-- No inverse that was run, and that the journal does not show as undone, put
an address back. -/
def Halt.Restartable (h : Halt SimulatedKernel) : Prop := ∀ e ∈ h.ran, ¬e.PutsBack

instance (e : Entry) : Decidable e.PutsBack := by
  cases h : effect e.undo with
  | addAddr dev pfx => exact .isTrue ⟨dev, pfx, h⟩
  | _ => exact .isFalse (by simp [Entry.PutsBack, h])

instance : DecidablePred Halt.Restartable := fun h => by
  unfold Halt.Restartable
  infer_instance

/-- Entries are told apart by their numbers. -/
theorem Numbered.eq_of_seq (h : Numbered es) {a b : Entry} (ha : a ∈ es) (hb : b ∈ es)
    (hseq : a.seq = b.seq) : a = b := by
  induction es with
  | nil => cases ha
  | cons e es ih =>
    obtain ⟨he, hes⟩ := List.pairwise_cons.mp h
    rcases List.mem_cons.mp ha with hae | hae
    · rcases List.mem_cons.mp hb with hbe | hbe
      · rw [hae, hbe]
      · have hlt := he b hbe
        rw [hae] at hseq
        omega
    · rcases List.mem_cons.mp hb with hbe | hbe
      · have hlt := he a hae
        rw [hbe] at hseq
        omega
      · exact ih hes hae hbe

theorem nodup_replayOrder (h : Numbered es) : (replayOrder es).Nodup := by
  have hes : es.Nodup := h.imp fun {a b} hlt heq => by
    rw [heq] at hlt
    exact lt_irrefl _ hlt
  have hlive : (liveOf es).Nodup := (List.nodup_reverse.mpr hes).filter _
  rw [replayOrder, passOne_eq, passTwo_eq]
  refine List.Nodup.append (hlive.filter _) (hlive.filter _) ?_
  intro e hone htwo
  have hne := (List.mem_filter.mp hone).2
  have heq := (List.mem_filter.mp htwo).2
  simp only [decide_eq_true_eq, ne_eq] at hne heq
  exact hne heq

theorem mem_of_mem_liveOf {e : Entry} (h : e ∈ liveOf es) : e ∈ es :=
  List.mem_reverse.mp (List.mem_filter.mp h).1

/-- What `replay` takes after some of the entries were recorded as undone: the
others, in the same order. -/
theorem replayOrder_recordUndone {j : Journal} {done later : List Entry}
    (h : replayOrder j.entries = done ++ later) :
    replayOrder (j.recordUndone done).entries = later ∧
      ∀ e ∈ liveOf (j.recordUndone done).entries, e ∈ liveOf j.entries := by
  have hnum : Numbered j.entries := numbered_entriesOf j.records
  have hmem : ∀ e ∈ done ++ later, e ∈ j.entries := fun e he =>
    mem_of_mem_liveOf (mem_replayOrder.mp (h ▸ he))
  have hnodup := nodup_replayOrder hnum
  rw [h] at hnodup
  have hlive : liveOf (j.recordUndone done).entries =
      (liveOf j.entries).filter fun e => e.seq ∉ done.map Entry.seq :=
    Journal.liveOf_recordUndone fun e he => ⟨e, hmem e (List.mem_append_left _ he), rfl⟩
  refine ⟨?_, ?_⟩
  · rw [replayOrder_of_liveOf hlive, h, List.filter_append]
    have hdone : (done.filter fun e => e.seq ∉ done.map Entry.seq) = [] := by
      rw [List.filter_eq_nil_iff]
      intro e he
      simpa using ⟨e, he, rfl⟩
    have hlater : (later.filter fun e => e.seq ∉ done.map Entry.seq) = later := by
      rw [List.filter_eq_self]
      intro e he
      rw [decide_eq_true_eq, List.mem_map]
      rintro ⟨a, ha, hseq⟩
      have heq := hnum.eq_of_seq (hmem a (List.mem_append_left _ ha))
        (hmem e (List.mem_append_right _ he)) hseq
      subst heq
      exact List.disjoint_of_nodup_append hnodup ha he
    rw [hdone, hlater, List.nil_append]
  · intro e he
    rw [hlive] at he
    exact (List.mem_filter.mp he).1

section Restart

variable {p : Plan} {current : Readings} {k : SimulatedKernel} {w : World SimulatedKernel}
  {h : Halt SimulatedKernel} {c : Core} {rs : List Record} {j : Option Journal}
  {ran done pending rest first again : List Entry}

/-- Inverses of the plan that were run are at rest. -/
theorem Plan.atRest_of_unwind (hp : Planned p) (hy : p.Yields current k) {log : List Entry}
    {c c' : Core} (hno : ∀ e ∈ log, ¬e.PutsBack)
    (hun : unwind (fun e : Entry => undoCore k.driver e.undo) log c = some c')
    (hmade : ∀ e ∈ log, p.Made current e c) : ∀ e ∈ log, p.AtRest current e c' :=
  rest_of_unwind (P := p.Made current) (R := p.AtRest current)
    (fun _ _ _ _ _ he he' hu => Plan.Made.kept hp hy he hu he')
    (fun e he _ _ hm hu => Plan.Made.rests hp hy hm (hno e he) hu)
    (fun e he _ _ _ hm hr hu => Plan.AtRest.kept hp hy hm (hno e he) hu hr) hun hmade

/-- **Recovery goes on where it was killed**, if none of the inverses it runs a
second time puts an address back. -/
theorem recover_after (hp : Planned p) (hy : p.Yields current k)
    (happ : p.Applied current k w)
    (hc : unwind (undoCore k.driver) (undosOf w.journal.entries) w.machine.toCore = some c)
    (hsplit : replayOrder w.journal.entries = done ++ pending ++ rest)
    (hafter : h.After rs ran { machine := w.machine, journal := j } done pending
      (replayOrder w.journal.entries))
    (hfirst : done ++ pending = first ++ again)
    (horder : replayOrder (entriesOf h.records) = again ++ rest)
    (hlive : ∀ e ∈ liveOf (entriesOf h.records), e ∈ liveOf w.journal.entries)
    (hagain : ∀ e ∈ again, ¬e.PutsBack) :
    entriesOf (recover SimulatedKernel.run h.machine h.records).2.1 = [] ∧
      (recover SimulatedKernel.run h.machine h.records).1.toCore = c := by
  have hmade : ∀ e ∈ first ++ again, p.Made current e w.machine.toCore := fun e he =>
    happ.made e (mem_replayOrder.mp (by
      rw [hsplit, hfirst]
      exact List.mem_append_left _ he))
  have hdriver : h.machine.driver.unwalled = k.driver.unwalled :=
    hafter.driver.trans happ.driver
  have hcore := hafter.core
  simp only [undoCore_congr happ.driver] at hcore
  have hrest : ∀ e ∈ again, p.AtRest current e h.machine.toCore := by
    rw [hfirst, unwind_append] at hcore
    obtain ⟨c₁, hfirst, hagain'⟩ := Option.bind_eq_some_iff.mp hcore
    refine Plan.atRest_of_unwind hp hy hagain hagain' fun e he => ?_
    exact keeps_of_unwind (P := p.Made current) (Q := p.Made current e)
      (fun _ _ _ _ _ he he' hu => Plan.Made.kept hp hy he hu he')
      (fun _ _ _ _ he he' hu => Plan.Made.kept hp hy he hu he') hfirst
      (fun e' he' => hmade e' (List.mem_append_left _ he')) (hmade e (List.mem_append_right _ he))
  have hundo : Undoable (entriesOf h.records) :=
    ⟨fun e he => happ.undoable.noQuery e (hlive e he),
      fun e he => happ.undoable.firewall e (hlive e he)⟩
  have hopen : OpenLinks (passOne (entriesOf h.records)) h.machine := by
    refine hafter.open_.mono fun e he => mem_replayOrder.mpr (hlive e ?_)
    exact mem_replayOrder.mp (List.mem_append_left _ he)
  refine recover_ok hundo hopen ?_
  rw [undoCore_congr hdriver, ← unwind_replayOrder hundo, horder, unwind_append,
    unwind_rest fun e he => (hrest e he).still hp hy]
  rw [← unwind_replayOrder happ.undoable, hsplit, unwind_append, hcore] at hc
  exact hc

/-- A restarted recovery is at rest where it was killed. -/
theorem recover_again (hp : Planned p) (hy : p.Yields current k)
    (happ : p.Applied current k w)
    (hopen : OpenLinks (passOne w.journal.entries) w.machine)
    (hc : unwind (undoCore k.driver) (undosOf w.journal.entries) w.machine.toCore = some c) :
    ∀ h ∈ recoverVisits SimulatedKernel.run w.machine w.journal.records ++
        teardownVisits SimulatedKernel.run w, h.Restartable →
      entriesOf (recover SimulatedKernel.run h.machine h.records).2.1 = [] ∧
        (recover SimulatedKernel.run h.machine h.records).1.toCore = c := by
  have hlinks := openLinks_replayOrder happ.undoable hopen
  have hq : NoQuery (replayOrder w.journal.entries) := fun e he =>
    happ.undoable.noQuery e (mem_replayOrder.mp he)
  have hsub : ∀ t ∈ turns w.journal.entries, t.2 ∈ replayOrder w.journal.entries := by
    intro t ht
    rw [← turns_snd]
    exact List.mem_map_of_mem ht
  have hun : unwind (fun e : Entry => undoCore w.machine.driver e.undo)
      ((turns w.journal.entries).map Prod.snd) w.machine.toCore = some c := by
    rw [turns_snd, unwind_replayOrder happ.undoable, undoCore_congr happ.driver]
    exact hc
  intro h hh hrestart
  rcases List.mem_append.mp hh with hh | hh
  · obtain ⟨done, pending, rest, hsplit, hafter⟩ := mem_turnVisits hsub hq
      (r := { machine := w.machine, journal := none }) hlinks rfl hun h hh
    rw [turns_snd] at hsplit
    have hrecords : entriesOf h.records = w.journal.entries := by
      rw [hafter.records]
      rfl
    refine recover_after hp hy happ hc hsplit hafter (List.nil_append _).symm
      (by rw [hrecords]; exact hsplit) (by rw [hrecords]; exact fun _ he => he) fun e he => ?_
    exact hrestart e (hafter.ran_eq ▸ he)
  · obtain ⟨done, pending, rest, hsplit, hafter⟩ := mem_turnVisits hsub hq
      (r := { machine := w.machine, journal := some w.journal }) hlinks rfl hun h hh
    rw [turns_snd] at hsplit
    have hrecords : entriesOf h.records = (w.journal.recordUndone done).entries := by
      rw [hafter.records]
      rfl
    have hlater := replayOrder_recordUndone (hsplit.trans (List.append_assoc _ _ _))
    refine recover_after hp hy happ hc hsplit hafter rfl (by rw [hrecords]; exact hlater.1)
      (by rw [hrecords]; exact hlater.2) fun e he => ?_
    exact hrestart e (hafter.ran_eq ▸ he)

/-- **Replay can be interrupted and restarted**: after a complete `Apply`, and
wherever `Recover` or `Teardown` is killed before the journal is rewritten, a
second `Recover` leaves an empty journal and the machine an uninterrupted
replay leaves, unless an address was put back and not recorded. -/
theorem recover_restarts (digest : String → String) (hp : Planned p) (hlinux : p.OnLinux)
    (hy : p.Yields current k) (hthere : p.hotspotTakenOver = true → p.hotspot ∈ k.ifaces)
    (hdone : (apply digest SimulatedKernel.run (p.steps current) (World.fresh k)).2.2 = none)
    (hw : w = (apply digest SimulatedKernel.run (p.steps current) (World.fresh k)).1) :
    ∀ h ∈ recoverVisits SimulatedKernel.run w.machine w.journal.records ++
        teardownVisits SimulatedKernel.run w, h.Restartable →
      entriesOf (recover SimulatedKernel.run h.machine h.records).2.1 = [] ∧
        (recover SimulatedKernel.run h.machine h.records).1.snapshot =
          (recover SimulatedKernel.run w.machine w.journal.records).1.snapshot ∧
        (recover SimulatedKernel.run h.machine h.records).1.snapshot =
          (teardown SimulatedKernel.run w).1.snapshot := by
  rw [Plan.steps_of_onLinux current hlinux] at hdone hw
  have happ : p.Applied current k w := by
    rw [hw]
    exact Plan.applied_of_apply digest hp hy hthere hdone
  have hopen : OpenLinks (passOne w.journal.entries) w.machine := by
    rw [hw]
    exact apply_of_visits digest SimulatedKernel.run
      (J := fun m => OpenLinks (passOne m.world.journal.entries) m.world.machine)
      (openLinks_of_visits digest hp.shape hp.tun_ne fun ht => (hy.driver ht).2)
  obtain ⟨c, hc⟩ := Option.isSome_iff_exists.mp happ.reversible.returns
  have hcw := hc
  rw [← undoCore_congr happ.driver] at hcw
  have hundo : Undoable (entriesOf w.journal.records) := happ.undoable
  have hrecover := (recover_ok hundo hopen hcw).2
  have hteardown := (replay_ok (some w.journal) happ.undoable hopen hcw).1
  intro h hh hrestart
  obtain ⟨hempty, hcore⟩ := recover_again hp hy happ hopen hc h hh hrestart
  exact ⟨hempty, congrArg Core.snapshot (hcore.trans hrecover.symm),
    congrArg Core.snapshot (hcore.trans hteardown.symm)⟩

end Restart

/-- The machine with one radio once the engine has made the tunnel device. -/
def tunnelKernel : SimulatedKernel :=
  { stationKernel with
    ifaces := [⟨"eth0", { type := "" }⟩, ⟨"wlan0", { type := "managed" }⟩,
      ⟨"xray0", { type := "" }⟩].toFinmap }

/-- The world in which the plan for that machine was applied. -/
def tunnelWorld : World SimulatedKernel × Report × Option String :=
  apply (fun _ => "") SimulatedKernel.run (stationPlan.steps stationKernel.readings)
    (World.fresh tunnelKernel)

/-- The points at which a recovery of that machine can be killed. -/
def tunnelHalts : List (Halt SimulatedKernel) :=
  recoverVisits SimulatedKernel.run tunnelWorld.1.machine tunnelWorld.1.journal.records

theorem tunnelKernel_yields : stationPlan.Yields stationKernel.readings tunnelKernel where
  valid := stationKernel_yields.valid
  keyword := stationKernel_yields.keyword
  verb := stationKernel_yields.verb
  driver := by decide

/-- Killed after the radio's type was put back and before its address was: the
second recovery ends where one would have. -/
theorem recover_restarts_before_address :
    ∃ h ∈ tunnelHalts,
      (h.Restartable ∧ h.ran.getLast?.map (fun e => commandLine e.undo) =
          some "ip link set dev wlan0 up") ∧
        entriesOf (recover SimulatedKernel.run h.machine h.records).2.1 = [] ∧
        (recover SimulatedKernel.run h.machine h.records).1.snapshot =
          (recover SimulatedKernel.run tunnelWorld.1.machine
            tunnelWorld.1.journal.records).1.snapshot := by
  have hex : ∃ h ∈ tunnelHalts, h.Restartable ∧
      h.ran.getLast?.map (fun e => commandLine e.undo) = some "ip link set dev wlan0 up" := by
    decide
  obtain ⟨h, hh, hrestart, hlast⟩ := hex
  have hall := recover_restarts (fun _ => "") stationPlan_planned (Or.inl rfl)
    tunnelKernel_yields (by decide) (by decide) (w := tunnelWorld.1) rfl h
    (List.mem_append_left _ hh) hrestart
  exact ⟨h, hh, ⟨hrestart, hlast⟩, hall.1, hall.2.1⟩

/-- Killed after the station address was put back: the second recovery is
refused the same address, and the entry stays with the firewall's. -/
theorem recover_stuck_after_address :
    (Planned stationPlan ∧ stationPlan.OnLinux ∧ tunnelWorld.2.2 = none ∧
        entriesOf (recover SimulatedKernel.run tunnelWorld.1.machine
          tunnelWorld.1.journal.records).2.1 = []) ∧
      ∃ h ∈ tunnelHalts,
        h.ran.getLast?.map (fun e => commandLine e.undo) =
            some "ip address add 192.168.1.50/24 dev wlan0" ∧
          (entriesOf (recover SimulatedKernel.run h.machine h.records).2.1).map Entry.op =
            [opNft, opAddr] :=
  ⟨⟨stationPlan_planned, Or.inl rfl, by decide +kernel, by decide +kernel⟩, by decide +kernel⟩

end Caspian.Netcfg
