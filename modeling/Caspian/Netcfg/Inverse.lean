import Caspian.Netcfg.Pairs
import Caspian.Verified.UndoLog

/-!
# What an inverse does

An inverse is judged as `undoOne` judges it: undone when the command succeeds
or finds its object gone, refused otherwise (`undoCore`).  Three facts about
each pair carry everything later.  After the change succeeded the inverse leads
back exactly (`Pair.undo_done`); it is not refused then (`Pair.undo_runs`); and
where the change was not made and the inverse has nothing to do, it does
nothing (`Pair.undo_idle`).

A link that may not come up is left out of this picture: it can refuse an
inverse, but it changes nothing a snapshot shows.  The driver is therefore
taken without its walls here (`undoCore`); `undoAt` has them.
-/

namespace Caspian.Netcfg

open Verified

/-! ## Answers and how they are read -/

theorem notFound_noEntry : isNotFound (simFail simNoEntry).1 (simFail simNoEntry).2 = true := by
  decide +kernel

theorem notFound_noDev : isNotFound (simFail simNoDev).1 (simFail simNoDev).2 = true := by
  decide

theorem notFound_iwNoDev : isNotFound (simFail simIwNoDev).1 (simFail simIwNoDev).2 = true := by
  decide

theorem exists_exists : isAlreadyExists (simFail simExists).1 (simFail simExists).2 = true := by
  decide

variable {msg : String}

/-- A removal that found nothing has not failed. -/
theorem verdict_of_gone {c : Command} {reply : Reply} (hr : commandRemoves c = true)
    (h : isNotFound reply.1 reply.2 = true) : verdict c reply ≠ .failed msg := by
  unfold verdict
  split
  · simp
  · rw [hr, h]
    simp

/-- A creation that found its object there has not failed. -/
theorem verdict_of_exists {c : Command} {reply : Reply}
    (h : isAlreadyExists reply.1 reply.2 = true) :
    verdict c reply ≠ .failed msg := by
  unfold verdict
  split
  · simp
  · rw [h]
    split <;> simp

/-- An effect that was refused changed nothing. -/
theorem Effect.on_failed (d : Driver) (e : Effect) (c : Core)
    (h : (e.on d c).2.2.isSome = true) : (e.on d c).1 = c := by
  cases e <;> simp only [Effect.on] at h ⊢
  all_goals (first | (simp [simOK] at h; done) | skip)
  all_goals (repeat' split at h)
  all_goals (try simp_all [simOK, simFail])

/-- Bringing a link up shows in no snapshot. -/
@[simp] theorem Effect.linkUp_core (d : Driver) (name : String) (c : Core) :
    ((Effect.linkUp name).on d c).1 = c := by
  by_cases hn : name ∈ c.ifaces
  · cases hw : d.linkWall name with
    | none | some msg => simp [Effect.on, hn, hw]
  · simp [Effect.on, hn]

variable {d : Driver} {c : Core}

/-- Links aside, an effect does not see the walls. -/
theorem Effect.on_unwalled {e : Effect} (he : ∀ name, e = .linkUp name → d.linkWall name = none) :
    e.on d.unwalled c = e.on d c := by
  cases e with
  | linkUp name => simp only [Effect.on, Driver.unwalled, he name rfl]
  | _ => rfl

/-- The walls do not decide how the core moves. -/
theorem Effect.on_unwalled_core (d : Driver) (e : Effect) (c : Core) :
    (e.on d.unwalled c).1 = (e.on d c).1 := by
  cases e with
  | linkUp name => rw [Effect.linkUp_core, Effect.linkUp_core]
  | _ => rfl

/-! ## Undoing a command -/

/-- `undoOne` on the core: the core after the inverse, or `none` when the
inverse is refused and stays in the journal. -/
def undoAt (d : Driver) (u : Command) (c : Core) : Option Core :=
  let out := (effect u).on d c
  if alreadyGone u out.2 then some out.1
  else if out.2.2.isSome then none
  else some out.1

/-- The same without the walls. -/
def undoCore (d : Driver) : Command → Core → Option Core := undoAt d.unwalled

theorem undoCore_congr {d' : Driver} (h : d.unwalled = d'.unwalled) : undoCore d = undoCore d' := by
  unfold undoCore
  rw [h]

variable {u : Command}

/-- An inverse that is not walled is judged alike with and without walls. -/
theorem undoAt_eq (h : ∀ name, effect u = .linkUp name → d.linkWall name = none) :
    undoAt d u c = undoCore d u c := by
  unfold undoCore undoAt
  rw [Effect.on_unwalled h]

/-- A wall can only refuse. -/
theorem undoCore_of_undoAt {c' : Core} (h : undoAt d u c = some c') : undoCore d u c = some c' := by
  by_cases hlink : ∃ name, effect u = .linkUp name
  · obtain ⟨name, hname⟩ := hlink
    have hcore : c' = c := by
      unfold undoAt at h
      simp only [hname, Effect.linkUp_core] at h
      split at h
      · exact (Option.some.inj h).symm
      · split at h
        · cases h
        · exact (Option.some.inj h).symm
    rw [hcore]
    by_cases hn : name ∈ c.ifaces
    · simp [undoCore, undoAt, hname, Effect.on, Driver.unwalled, hn, alreadyGone, simOK]
    · unfold undoAt at h
      unfold undoCore undoAt
      simp only [hname, Effect.on, hn, if_false] at h ⊢
      rw [hcore] at h
      exact h
  · have heq := undoAt_eq (d := d) (u := u) (c := c) fun name hname => absurd ⟨name, hname⟩ hlink
    rw [← heq]
    exact h

/-- Where an inverse is not refused, it moved the core as its effect does. -/
theorem undoCore_eq {c' : Core} (h : undoCore d u c = some c') :
    c' = ((effect u).on d.unwalled c).1 := by
  unfold undoCore undoAt at h
  simp only at h
  split at h
  · exact (Option.some.inj h).symm
  · split at h
    · cases h
    · exact (Option.some.inj h).symm

/-- An inverse that succeeds is not refused. -/
theorem undoCore_of_ok (h : ((effect u).on d.unwalled c).2.2 = none) :
    undoCore d u c = some ((effect u).on d.unwalled c).1 := by
  simp [undoCore, undoAt, alreadyGone, h]

/-- A removal whose object is gone is not refused. -/
theorem undoCore_of_gone (hr : commandRemoves u = true)
    (hn : isNotFound ((effect u).on d.unwalled c).2.1 ((effect u).on d.unwalled c).2.2 = true) :
    undoCore d u c = some c := by
  have hsome : ((effect u).on d.unwalled c).2.2.isSome = true := by
    cases herr : ((effect u).on d.unwalled c).2.2 with
    | none => rw [herr] at hn; cases hn
    | some msg => rfl
  have hcore := Effect.on_failed d.unwalled (effect u) c hsome
  simp [undoCore, undoAt, alreadyGone, hsome, hr, hn, hcore]

/-- An inverse `ValidateCommand` turns down is refused: the message is not one
that says the object is gone. -/
theorem undoCore_invalid (hpath : u.path ∈ allowedBinaries) (h : validateCommand u ≠ none) :
    undoCore d u c = none := by
  have hz : u.isZero = false := by
    cases hz : u.isZero with
    | false => rfl
    | true =>
      simp only [Command.isZero, Bool.and_eq_true, decide_eq_true_eq] at hz
      rw [hz.1] at hpath
      exact absurd hpath (by decide)
  obtain ⟨i, hi⟩ : ∃ i, nulArgument u.args = some i := by
    cases hn : nulArgument u.args with
    | none => simp [validateCommand, hz, hpath, hn] at h
    | some i => exact ⟨i, rfl⟩
  have hmsg : validateCommand u = some ("netcfg: argument " ++ Netip.itoa i ++
      (" of " ++ Text.quote u.path ++ " contains a NUL byte")) := by
    simp [validateCommand, hz, hpath, hi, String.append_assoc]
  have heff : effect u = .reject ({}, some ("netcfg: argument " ++ Netip.itoa i ++
      (" of " ++ Text.quote u.path ++ " contains a NUL byte"))) := by
    unfold effect
    rw [hmsg]
  have hnf := isNotFound_nul hpath i
  simp only [undoCore, undoAt, heff, Effect.on, alreadyGone, Option.isSome_some, Bool.true_and,
    if_true, hnf, Bool.and_false, Bool.false_eq_true, if_false]

/-! ## Inverses of pairs -/

theorem insert_of_lookup {α : Type} {β : α → Type} [DecidableEq α] {a : α} {b : β a}
    {s : Finmap β} (h : s.lookup a = some b) : s.insert a b = s := by
  refine Finmap.ext_lookup fun x => ?_
  by_cases hx : x = a
  · subst hx
    rw [Finmap.lookup_insert, h]
  · rw [Finmap.lookup_insert_of_ne s hx]

theorem erase_insert_of_notMem {α : Type} {β : α → Type} [DecidableEq α] {a : α} {b : β a}
    {s : Finmap β} (h : a ∉ s) : (s.insert a b).erase a = s := by
  refine Finmap.ext_lookup fun x => ?_
  by_cases hx : x = a
  · subst hx
    rw [Finmap.lookup_erase, Finmap.lookup_eq_none.mpr h]
  · rw [Finmap.lookup_erase_ne hx, Finmap.lookup_insert_of_ne s hx]

theorem mem_of_lookup {α : Type} {β : α → Type} [DecidableEq α] {a : α} {b : β a}
    {s : Finmap β} (h : s.lookup a = some b) : a ∈ s :=
  Finmap.mem_of_lookup_eq_some h

/-- The two cores hold the same objects; only values may differ. -/
structure Core.Agree (a b : Core) : Prop where
  addrs : a.addrs = b.addrs
  routes : a.routes = b.routes
  rules : a.rules = b.rules
  ifaces : ∀ name, name ∈ a.ifaces ↔ name ∈ b.ifaces

theorem Core.Agree.refl (c : Core) : c.Agree c := ⟨rfl, rfl, rfl, fun _ => Iff.rfl⟩

theorem Core.Agree.symm {a b : Core} (h : a.Agree b) : b.Agree a :=
  ⟨h.addrs.symm, h.routes.symm, h.rules.symm, fun n => (h.ifaces n).symm⟩

theorem Core.Agree.trans {a b : Core} (h : a.Agree b) (h' : b.Agree c) : a.Agree c :=
  ⟨h.addrs.trans h'.addrs, h.routes.trans h'.routes, h.rules.trans h'.rules,
    fun n => (h.ifaces n).trans (h'.ifaces n)⟩

/-- Writing to an interface that is there changes no object. -/
theorem Core.agree_insert {name : String} {i j : Iface} (h : c.ifaces.lookup name = some i) :
    ({ c with ifaces := c.ifaces.insert name j } : Core).Agree c := by
  refine ⟨rfl, rfl, rfl, fun n => ?_⟩
  rw [Finmap.mem_insert]
  refine ⟨?_, Or.inr⟩
  rintro (rfl | hn)
  · exact Finmap.mem_of_lookup_eq_some h
  · exact hn

namespace Pair

/-- The value a pair's inverse would write is the one that is there. -/
def Ready (π : Pair) (c : Core) : Prop :=
  match π with
  | knob name _ prev => c.sysctl.lookup name = some prev
  | release name => ∀ i, c.ifaces.lookup name = some i → i.released = false
  | retype name _ => ∀ i, c.ifaces.lookup name = some i → i.type = "managed"
  | _ => True

/-- A route is deleted from the table it was added to. -/
def Matched (π : Pair) : Prop :=
  match π with
  | route table _ table' => table' = table
  | _ => True

/-- The interface a pair writes to is there. -/
def Standing (π : Pair) (c : Core) : Prop :=
  match π with
  | release name => name ∈ c.ifaces
  | down name => name ∈ c.ifaces
  | retype name _ => name ∈ c.ifaces
  | _ => True

/-- Nothing stands in the way of the inverse where it has nothing to do: the
interface's name is not read as a verb, the type may be set. -/
def Allowed (π : Pair) (d : Driver) : Prop :=
  match π with
  | create name _ => name ∉ verbNames
  | retype _ _ => d.setType = ""
  | _ => True

variable {π : Pair}

/-- After a change succeeded its inverse succeeds.  The objects are the ones
there were, and so are the values if the inverse writes those. -/
theorem undo_spec {u : Effect} (hrun : (π.run.on d c).2.2 = none) (hmatch : π.Matched)
    (hu : π.undo = some u) :
    (π.Standing c → (u.on d.unwalled (π.run.on d c).1).2.2 = none) ∧
      (u.on d.unwalled (π.run.on d c).1).1.Agree c ∧
      (π.Ready c → (u.on d.unwalled (π.run.on d c).1).1 = c) := by
  cases π with
  | firewall =>
    cases hu
    exact ⟨fun _ => rfl, .refl c, fun _ => rfl⟩
  | knob name value prev =>
    cases hu
    refine ⟨fun _ => rfl, ⟨rfl, rfl, rfl, fun _ => Iff.rfl⟩, fun hready => ?_⟩
    simp only [Pair.run, Effect.on, Finmap.insert_insert]
    rw [insert_of_lookup hready]
  | create name type =>
    cases hu
    simp only [Pair.run, Effect.on] at hrun ⊢
    by_cases hd : d.ifaceAdd = ""
    · by_cases hn : name ∈ c.ifaces
      · simp [hd, hn, simFail] at hrun
      · simp [hd, hn, erase_insert_of_notMem hn, simOK, Core.Agree.refl]
    · simp [hd, simFail] at hrun
  | release name =>
    cases hu
    cases hi : c.ifaces.lookup name with
    | none => simp [Pair.run, Effect.on, hi, simFail] at hrun
    | some i =>
      simp only [Pair.run, Effect.on, hi, Finmap.lookup_insert, Finmap.insert_insert]
      refine ⟨fun _ => rfl, Core.agree_insert hi, fun hready => ?_⟩
      have hsame : ({ i with released := false } : Iface) = i := by rw [← hready i hi]
      rw [hsame, insert_of_lookup hi]
  | strip dev pfx =>
    cases hu
    simp only [Pair.run, Effect.on] at hrun ⊢
    by_cases hd : dev ∈ c.ifaces
    · by_cases ha : (dev, pfx) ∈ c.addrs
      · simp [hd, ha, Finset.insert_erase ha, simOK, Core.Agree.refl]
      · simp [hd, ha, simFail] at hrun
    · simp [hd, simFail] at hrun
  | down name =>
    cases hu
    rw [Effect.linkUp_core]
    refine ⟨fun hn => ?_, .refl c, fun _ => rfl⟩
    simp [Pair.run, Effect.on, Driver.unwalled, show name ∈ c.ifaces from hn, simOK]
  | retype name type =>
    cases hu
    by_cases hd : d.setType = ""
    · cases hi : c.ifaces.lookup name with
      | none => simp [Pair.run, Effect.on, hd, hi, simFail] at hrun
      | some i =>
        simp only [Pair.run, Effect.on, Driver.unwalled, hd, hi, ne_eq, not_true,
          if_false, Finmap.lookup_insert, Finmap.insert_insert]
        refine ⟨fun _ => rfl, Core.agree_insert hi, fun hready => ?_⟩
        have hsame : ({ i with type := "managed" } : Iface) = i := by rw [← hready i hi]
        rw [hsame, insert_of_lookup hi]
    · simp [Pair.run, Effect.on, hd, simFail] at hrun
  | addr dev pfx =>
    cases hu
    simp only [Pair.run, Effect.on] at hrun ⊢
    by_cases hd : dev ∈ c.ifaces
    · by_cases ha : (dev, pfx) ∈ c.addrs
      · simp [hd, ha, simFail] at hrun
      · simp [hd, ha, Finset.erase_insert ha, simOK, Core.Agree.refl]
    · simp [hd, simFail] at hrun
  | route table pfx table' =>
    cases hu
    obtain rfl : table' = table := hmatch
    simp only [Pair.run, Effect.on] at hrun ⊢
    by_cases hr : (table', pfx) ∈ c.routes
    · simp [hr, simFail] at hrun
    · simp [hr, Finset.erase_insert hr, simOK, Core.Agree.refl]
  | rule r =>
    cases hu
    simp only [Pair.run, Effect.on] at hrun ⊢
    by_cases hr : r ∈ c.rules
    · simp [hr, simFail] at hrun
    · simp [hr, List.erase_append_right, simOK, Core.Agree.refl]
  | _ => cases hu

/-- **A change that succeeded is taken back exactly.** -/
theorem undo_done {u : Effect} (hrun : (π.run.on d c).2.2 = none) (hready : π.Ready c)
    (hmatch : π.Matched) (hu : π.undo = some u) : (u.on d.unwalled (π.run.on d c).1).1 = c :=
  (undo_spec hrun hmatch hu).2.2 hready

/-- **After a change succeeded its inverse succeeds**, and the objects are the
ones there were. -/
theorem undo_runs {u : Effect} (hrun : (π.run.on d c).2.2 = none) (hmatch : π.Matched)
    (hstand : π.Standing c) (hu : π.undo = some u) :
    (u.on d.unwalled (π.run.on d c).1).2.2 = none ∧
      (u.on d.unwalled (π.run.on d c).1).1.Agree c :=
  have h := undo_spec hrun hmatch hu
  ⟨h.1 hstand, h.2.1⟩

/-- The change was not made, and the inverse finds nothing to do. -/
def Idle (π : Pair) (c : Core) : Prop :=
  match π with
  | create name _ => name ∉ c.ifaces
  | strip _ _ => False
  | addr dev pfx => dev ∈ c.ifaces → (dev, pfx) ∉ c.addrs
  | route _ pfx table' => (table', pfx) ∉ c.routes
  | rule r => r ∉ c.rules
  | π => π.Ready c

/-- **An inverse with nothing to do does nothing.** -/
theorem undo_idle {u : Effect} (h : π.Idle c) (hu : π.undo = some u) : (u.on d c).1 = c := by
  cases π with
  | firewall =>
    cases hu
    rfl
  | knob name value prev =>
    cases hu
    simp only [Effect.on]
    rw [insert_of_lookup h]
  | create name type =>
    cases hu
    have hn : name ∉ c.ifaces := h
    simp [Effect.on, hn]
  | release name =>
    cases hu
    cases hi : c.ifaces.lookup name with
    | none => simp [Effect.on, hi]
    | some i =>
      have hsame : ({ i with released := false } : Iface) = i := by rw [← h i hi]
      simp [Effect.on, hi, hsame, insert_of_lookup hi]
  | strip dev pfx => exact absurd h id
  | down name =>
    cases hu
    exact Effect.linkUp_core d name c
  | retype name type =>
    cases hu
    by_cases hd : d.setType = ""
    · cases hi : c.ifaces.lookup name with
      | none => simp [Effect.on, hd, hi]
      | some i =>
        have hsame : ({ i with type := "managed" } : Iface) = i := by rw [← h i hi]
        simp [Effect.on, hd, hi, hsame, insert_of_lookup hi]
    · simp [Effect.on, hd]
  | addr dev pfx =>
    cases hu
    by_cases hd : dev ∈ c.ifaces
    · have ha : (dev, pfx) ∉ c.addrs := h hd
      simp [Effect.on, hd, ha]
    · simp [Effect.on, hd]
  | route table pfx table' =>
    cases hu
    have hr : (table', pfx) ∉ c.routes := h
    simp [Effect.on, hr]
  | rule r =>
    cases hu
    have hr : r ∉ c.rules := h
    simp [Effect.on, hr]
  | _ => cases hu

/-- Where it has nothing to do, the inverse is not refused either. -/
theorem undo_idle_runs {run : Command} (h : π.Idle c) (hallowed : π.Allowed d)
    (hstand : π.Standing c) (hremoves : π.Removal run u) (hu : π.undo = some (effect u)) :
    undoCore d u c = some c := by
  have hcore := undo_idle (d := d.unwalled) h hu
  have hok : ((effect u).on d.unwalled c).2.2 = none → undoCore d u c = some c := by
    intro hnone
    rw [undoCore_of_ok hnone, hcore]
  cases π with
  | firewall | knob name value prev =>
    apply hok
    rw [← Option.some.inj hu]
    rfl
  | create name type =>
    have hn : name ∉ c.ifaces := h
    refine undoCore_of_gone (hremoves hallowed) ?_
    rw [← Option.some.inj hu]
    simp only [Effect.on, if_neg hn]
    exact notFound_iwNoDev
  | release name =>
    apply hok
    have hn : name ∈ c.ifaces := hstand
    obtain ⟨i, hi⟩ := Finmap.mem_iff.mp hn
    rw [← Option.some.inj hu]
    simp [Effect.on, hi, simOK]
  | strip dev pfx => exact absurd h id
  | down name =>
    apply hok
    have hn : name ∈ c.ifaces := hstand
    rw [← Option.some.inj hu]
    simp [Effect.on, Driver.unwalled, hn, simOK]
  | retype name type =>
    apply hok
    have hn : name ∈ c.ifaces := hstand
    have hd : d.setType = "" := hallowed
    obtain ⟨i, hi⟩ := Finmap.mem_iff.mp hn
    rw [← Option.some.inj hu]
    simp [Effect.on, Driver.unwalled, hd, hi, simOK]
  | addr dev pfx =>
    refine undoCore_of_gone hremoves ?_
    rw [← Option.some.inj hu]
    by_cases hd : dev ∈ c.ifaces
    · have ha : (dev, pfx) ∉ c.addrs := h hd
      simp only [Effect.on, hd, not_true, if_false, if_neg ha]
      exact notFound_noEntry
    · simp only [Effect.on, hd, not_false_eq_true, if_true]
      exact notFound_noDev
  | route table pfx table' =>
    have hr : (table', pfx) ∉ c.routes := h
    refine undoCore_of_gone hremoves ?_
    rw [← Option.some.inj hu]
    simp only [Effect.on, if_neg hr]
    exact notFound_noEntry
  | rule r =>
    have hr : r ∉ c.rules := h
    refine undoCore_of_gone hremoves ?_
    rw [← Option.some.inj hu]
    simp only [Effect.on, if_neg hr]
    exact notFound_noEntry
  | _ => cases hu

/-- A change that failed, and not because its object was there or gone, left
the inverse nothing to do. -/
theorem idle_of_failed {run undo : Command} (hv : verdict run (π.run.on d c).2 = .failed msg)
    (hready : π.Ready c) (hremoves : π.Removal run undo)
    (hfresh : ∀ name type, π = .create name type → name ∉ c.ifaces) : π.Idle c := by
  cases π with
  | create name type => exact hfresh name type rfl
  | strip dev pfx =>
    refine absurd hv ?_
    simp only [Pair.run, Effect.on]
    by_cases hd : dev ∈ c.ifaces
    · by_cases ha : (dev, pfx) ∈ c.addrs
      · simp [hd, ha, verdict, simOK]
      · simp only [hd, not_true, if_false, ha]
        exact verdict_of_gone hremoves notFound_noEntry
    · simp only [hd, not_false_eq_true, if_true]
      exact verdict_of_gone hremoves notFound_noDev
  | addr dev pfx =>
    intro hd ha
    refine absurd hv ?_
    simp only [Pair.run, Effect.on, hd, not_true, if_false, ha, if_true]
    exact verdict_of_exists exists_exists
  | route table pfx table' =>
    intro hr
    refine absurd hv ?_
    simp only [Pair.run, Effect.on]
    by_cases hr' : (table, pfx) ∈ c.routes
    · rw [if_pos hr']
      exact verdict_of_exists exists_exists
    · simp [hr', verdict, simOK]
  | rule r =>
    intro hr
    refine absurd hv ?_
    simp only [Pair.run, Effect.on, hr, if_true]
    exact verdict_of_exists exists_exists
  | _ => exact hready

end Pair

end Caspian.Netcfg
