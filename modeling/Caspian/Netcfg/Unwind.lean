import Caspian.Netcfg.Inverse

/-!
# Unwinding the inverses of steps

The facts of `Inverse` for the commands of a step, and the two ways in which
two cores can be close enough to be unwound alike: they hold the same objects
(`Core.Agree`), or they differ in whether one interface is released while an
inverse that deletes this interface is still to run (`unwind_release`).
-/

namespace Caspian.Netcfg

open Verified Verified.UndoLog

/-! ## Cores that hold the same objects -/

variable {a b : Core}

/-- An effect answers cores with the same objects alike and leaves them with
the same objects. -/
theorem Effect.on_agree (d : Driver) (e : Effect) (h : a.Agree b) :
    (e.on d a).2 = (e.on d b).2 ∧ (e.on d a).1.Agree (e.on d b).1 := by
  have hlook : ∀ name, a.ifaces.lookup name = none ↔ b.ifaces.lookup name = none := by
    intro name
    rw [Finmap.lookup_eq_none, Finmap.lookup_eq_none, h.ifaces name]
  have hsome : ∀ {name j}, b.ifaces.lookup name = some j → ∃ i, a.ifaces.lookup name = some i := by
    intro name j hb
    refine Option.ne_none_iff_exists'.mp fun hnone => ?_
    rw [(hlook name).mp hnone] at hb
    cases hb
  cases e with
  | addIface name type =>
    by_cases hd : d.ifaceAdd = ""
    · by_cases hn : name ∈ b.ifaces
      · have ha : name ∈ a.ifaces := (h.ifaces name).mpr hn
        simpa [Effect.on, hd, hn, ha] using h
      · have ha : name ∉ a.ifaces := fun h' => hn ((h.ifaces name).mp h')
        simp only [Effect.on, hd, hn, ha, ne_eq, not_true, if_false]
        refine ⟨trivial, h.addrs, h.routes, h.rules, fun n => ?_⟩
        simp only [Finmap.mem_insert, h.ifaces n]
    · simpa [Effect.on, hd] using h
  | delIface name =>
    by_cases hn : name ∈ b.ifaces
    · have ha : name ∈ a.ifaces := (h.ifaces name).mpr hn
      simp only [Effect.on, hn, ha, if_true]
      refine ⟨trivial, h.addrs, h.routes, h.rules, fun n => ?_⟩
      simp only [Finmap.mem_erase, h.ifaces n]
    · have ha : name ∉ a.ifaces := fun h' => hn ((h.ifaces name).mp h')
      simpa [Effect.on, hn, ha] using h
  | setType name type =>
    by_cases hd : d.setType = ""
    · cases hb : b.ifaces.lookup name with
      | none =>
        have ha := (hlook name).mpr hb
        simpa [Effect.on, hd, hb, ha] using h
      | some j =>
        obtain ⟨i, hi⟩ := hsome hb
        simp only [Effect.on, hd, hb, hi, ne_eq, not_true, if_false]
        exact ⟨trivial, (Core.agree_insert hi).trans (h.trans (Core.agree_insert hb).symm)⟩
    · simpa [Effect.on, hd] using h
  | setManaged name released =>
    cases hb : b.ifaces.lookup name with
    | none =>
      have ha := (hlook name).mpr hb
      simpa [Effect.on, hb, ha] using h
    | some j =>
      obtain ⟨i, hi⟩ := hsome hb
      simp only [Effect.on, hb, hi]
      exact ⟨trivial, (Core.agree_insert hi).trans (h.trans (Core.agree_insert hb).symm)⟩
  | linkUp name =>
    refine ⟨?_, by simpa using h⟩
    simp only [Effect.on, h.ifaces name]
    split
    · split <;> rfl
    · rfl
  | addAddr dev pfx =>
    simp only [Effect.on, h.ifaces dev, h.addrs]
    split
    · exact ⟨rfl, h⟩
    · split
      · exact ⟨rfl, h⟩
      · exact ⟨rfl, rfl, h.routes, h.rules, h.ifaces⟩
  | delAddr dev pfx =>
    simp only [Effect.on, h.ifaces dev, h.addrs]
    split
    · exact ⟨rfl, h⟩
    · split
      · exact ⟨rfl, rfl, h.routes, h.rules, h.ifaces⟩
      · exact ⟨rfl, h⟩
  | addRoute table pfx =>
    simp only [Effect.on, h.routes]
    split
    · exact ⟨rfl, h⟩
    · exact ⟨rfl, h.addrs, rfl, h.rules, h.ifaces⟩
  | delRoute table pfx =>
    simp only [Effect.on, h.routes]
    split
    · exact ⟨rfl, h.addrs, rfl, h.rules, h.ifaces⟩
    · exact ⟨rfl, h⟩
  | addRule r =>
    simp only [Effect.on, h.rules]
    split
    · exact ⟨rfl, h⟩
    · exact ⟨rfl, h.addrs, h.routes, rfl, h.ifaces⟩
  | delRule r =>
    simp only [Effect.on, h.rules]
    split
    · exact ⟨rfl, h.addrs, h.routes, rfl, h.ifaces⟩
    · exact ⟨rfl, h⟩
  | autoRule selector =>
    simp only [Effect.on, h.rules]
    exact ⟨trivial, h.addrs, h.routes, rfl, h.ifaces⟩
  | setKnob name value => exact ⟨rfl, h.addrs, h.routes, h.rules, h.ifaces⟩
  | _ => exact ⟨rfl, h⟩

variable {u : Command}

/-- An inverse is refused on one of two cores with the same objects only if it
is on the other. -/
theorem undoCore_agree {d : Driver} {a' : Core} (h : a.Agree b) (ha : undoCore d u a = some a') :
    ∃ b', undoCore d u b = some b' ∧ a'.Agree b' := by
  obtain ⟨hreply, hcore⟩ := Effect.on_agree d.unwalled (effect u) h
  unfold undoCore undoAt at ha ⊢
  simp only [hreply] at ha ⊢
  split at ha
  next hgone =>
    obtain rfl := Option.some.inj ha
    exact ⟨_, if_pos hgone, hcore⟩
  next hgone =>
    split at ha
    · cases ha
    next herr =>
      obtain rfl := Option.some.inj ha
      exact ⟨_, by rw [if_neg hgone, if_neg herr], hcore⟩

/-- Cores with the same objects can be unwound alike. -/
theorem unwind_agree {d : Driver} {log : List Command} (h : a.Agree b)
    (ha : (unwind (undoCore d) log a).isSome = true) :
    (unwind (undoCore d) log b).isSome = true := by
  obtain ⟨a', ha'⟩ := Option.isSome_iff_exists.mp ha
  have hstep : ∀ u ∈ log, ∀ x y x', x.Agree y → undoCore d u x = some x' →
      ∃ y', undoCore d u y = some y' ∧ x'.Agree y' :=
    fun u _ x y x' hxy hx => undoCore_agree hxy hx
  obtain ⟨b', hb', _⟩ := unwind_rel Core.Agree hstep h ha'
  rw [hb']
  rfl

/-! ## Releasing an interface -/

/-- The interfaces with one of them released, if it is there. -/
def releaseIn (name : String) (m : Finmap fun _ : String => Iface) :
    Finmap fun _ : String => Iface :=
  match m.lookup name with
  | none => m
  | some i => m.insert name { i with released := true }

theorem lookup_releaseIn_self (name : String) (m : Finmap fun _ : String => Iface) :
    (releaseIn name m).lookup name =
      (m.lookup name).map fun i => { i with released := true } := by
  unfold releaseIn
  cases h : m.lookup name with
  | none => exact h
  | some i => exact Finmap.lookup_insert m

variable {name other : String}

theorem lookup_releaseIn_ne (h : other ≠ name) (m : Finmap fun _ : String => Iface) :
    (releaseIn name m).lookup other = m.lookup other := by
  unfold releaseIn
  cases m.lookup name with
  | none => rfl
  | some i => exact Finmap.lookup_insert_of_ne m h

theorem mem_releaseIn (name other : String) (m : Finmap fun _ : String => Iface) :
    other ∈ releaseIn name m ↔ other ∈ m := by
  rw [← Finmap.lookup_isSome, ← Finmap.lookup_isSome]
  by_cases h : other = name
  · rw [h, lookup_releaseIn_self, Option.isSome_map]
  · rw [lookup_releaseIn_ne h]

/-- Releasing and writing another interface can be done in either order. -/
theorem releaseIn_insert_ne (h : other ≠ name) (i : Iface) (m : Finmap fun _ : String => Iface) :
    (releaseIn name m).insert other i = releaseIn name (m.insert other i) := by
  refine Finmap.ext_lookup fun x => ?_
  by_cases hx : x = other
  · subst hx
    rw [Finmap.lookup_insert, lookup_releaseIn_ne h, Finmap.lookup_insert]
  · rw [Finmap.lookup_insert_of_ne _ hx]
    by_cases hn : x = name
    · subst hn
      rw [lookup_releaseIn_self, lookup_releaseIn_self, Finmap.lookup_insert_of_ne _ hx]
    · rw [lookup_releaseIn_ne hn, lookup_releaseIn_ne hn, Finmap.lookup_insert_of_ne _ hx]

/-- Writing an interface hides that it was released. -/
theorem releaseIn_insert_self (name : String) (i : Iface)
    (m : Finmap fun _ : String => Iface) :
    (releaseIn name m).insert name i = m.insert name i := by
  refine Finmap.ext_lookup fun x => ?_
  by_cases hx : x = name
  · subst hx
    rw [Finmap.lookup_insert, Finmap.lookup_insert]
  · rw [Finmap.lookup_insert_of_ne _ hx, Finmap.lookup_insert_of_ne _ hx,
      lookup_releaseIn_ne hx]

theorem releaseIn_erase_ne (h : other ≠ name) (m : Finmap fun _ : String => Iface) :
    (releaseIn name m).erase other = releaseIn name (m.erase other) := by
  refine Finmap.ext_lookup fun x => ?_
  by_cases hx : x = other
  · subst hx
    rw [Finmap.lookup_erase, lookup_releaseIn_ne h, Finmap.lookup_erase]
  · rw [Finmap.lookup_erase_ne hx]
    by_cases hn : x = name
    · subst hn
      rw [lookup_releaseIn_self, lookup_releaseIn_self, Finmap.lookup_erase_ne hx]
    · rw [lookup_releaseIn_ne hn, lookup_releaseIn_ne hn, Finmap.lookup_erase_ne hx]

/-- Deleting an interface hides that it was released. -/
theorem releaseIn_erase_self (name : String) (m : Finmap fun _ : String => Iface) :
    (releaseIn name m).erase name = m.erase name := by
  refine Finmap.ext_lookup fun x => ?_
  by_cases hx : x = name
  · subst hx
    rw [Finmap.lookup_erase, Finmap.lookup_erase]
  · rw [Finmap.lookup_erase_ne hx, Finmap.lookup_erase_ne hx, lookup_releaseIn_ne hx]

/-- The core with one interface released, if it is there. -/
def Core.release (name : String) (c : Core) : Core :=
  { c with ifaces := releaseIn name c.ifaces }

theorem Core.release_of_notMem {c : Core} (h : name ∉ c.ifaces) : c.release name = c := by
  unfold Core.release releaseIn
  rw [Finmap.lookup_eq_none.mpr h]

theorem Effect.setManaged_core (d : Driver) (name : String) (c : Core) :
    ((Effect.setManaged name true).on d c).1 = c.release name := by
  unfold Core.release releaseIn
  cases h : c.ifaces.lookup name with
  | none | some i => simp [Effect.on, h]

/-- Releasing changes no object. -/
theorem Core.release_agree (name : String) (c : Core) : (c.release name).Agree c :=
  ⟨rfl, rfl, rfl, fun other => mem_releaseIn name other c.ifaces⟩

/-- An effect does not notice the release, or leaves it in place. -/
theorem Effect.on_release (d : Driver) (e : Effect) (name : String) (c : Core) :
    e.on d (c.release name) = e.on d c ∨
      e.on d (c.release name) = ((e.on d c).1.release name, (e.on d c).2) := by
  have hmem : ∀ other, other ∈ (c.release name).ifaces ↔ other ∈ c.ifaces :=
    (c.release_agree name).ifaces
  cases e with
  | addIface other type =>
    by_cases hn : other ∈ c.ifaces
    · right
      simp only [Effect.on, hmem, hn, if_true]
      split <;> rfl
    · by_cases hne : other = name
      · left
        rw [Core.release_of_notMem (hne ▸ hn)]
      · right
        simp only [Effect.on, hmem, hn, if_false]
        split
        · rfl
        · simp only [Core.release, releaseIn_insert_ne hne]
  | delIface other =>
    by_cases hne : other = name
    · left
      subst hne
      simp only [Effect.on, hmem]
      split
      · simp only [Core.release, releaseIn_erase_self]
      next hn => rw [Core.release_of_notMem hn]
    · right
      simp only [Effect.on, hmem]
      split
      · simp only [Core.release, releaseIn_erase_ne hne]
      · rfl
  | setType other type =>
    right
    by_cases hd : d.setType = ""
    · by_cases hne : other = name
      · subst hne
        simp only [Effect.on, hd, Core.release, lookup_releaseIn_self]
        cases h : c.ifaces.lookup other with
        | none => rfl
        | some i =>
          simp only [Option.map_some, releaseIn_insert_self, ne_eq, not_true, if_false]
          rw [releaseIn, Finmap.lookup_insert]
          simp only [Finmap.insert_insert]
      · simp only [Effect.on, hd, Core.release, lookup_releaseIn_ne hne]
        cases c.ifaces.lookup other with
        | none => rfl
        | some i => simp only [releaseIn_insert_ne hne, ne_eq, not_true, if_false]
    · simp [Effect.on, hd]
  | setManaged other released =>
    by_cases hne : other = name
    · left
      subst hne
      simp only [Effect.on, Core.release, lookup_releaseIn_self]
      cases h : c.ifaces.lookup other with
      | none => simp [releaseIn, h]
      | some i => simp [releaseIn_insert_self]
    · right
      simp only [Effect.on, Core.release, lookup_releaseIn_ne hne]
      cases c.ifaces.lookup other with
      | none => rfl
      | some i => simp only [releaseIn_insert_ne hne]
  | linkUp other =>
    right
    simp only [Effect.on, hmem]
    split
    · split <;> rfl
    · rfl
  | addAddr dev pfx | delAddr dev pfx =>
    right
    simp only [Effect.on, hmem]
    by_cases hd : dev ∈ c.ifaces
    · by_cases ha : (dev, pfx) ∈ c.addrs <;> simp [Core.release, hd, ha]
    · simp [hd]
  | addRoute table pfx | delRoute table pfx =>
    right
    by_cases hr : (table, pfx) ∈ c.routes <;> simp [Effect.on, Core.release, hr]
  | addRule r | delRule r =>
    right
    by_cases hr : r ∈ c.rules <;> simp [Effect.on, Core.release, hr]
  | _ => exact Or.inr rfl

/-- An inverse does not notice the release, or leaves it in place. -/
theorem undoCore_release (d : Driver) (u : Command) (name : String) (c : Core) :
    undoCore d u (c.release name) = undoCore d u c ∨
      undoCore d u (c.release name) = (undoCore d u c).map (Core.release name) := by
  unfold undoCore undoAt
  rcases Effect.on_release d.unwalled (effect u) name c with h | h
  · left
    rw [h]
  · right
    rw [h]
    simp only
    split
    · rfl
    · split <;> rfl

/-- Once the interface is deleted, nothing is left of its release. -/
theorem undoCore_release_delIface (hu : effect u = .delIface name) (d : Driver) (c : Core) :
    undoCore d u (c.release name) = undoCore d u c := by
  have heff : (Effect.delIface name).on d.unwalled (c.release name) =
      (Effect.delIface name).on d.unwalled c := by
    simp only [Effect.on, (c.release_agree name).ifaces]
    split
    · simp only [Core.release, releaseIn_erase_self]
    next hn => rw [Core.release_of_notMem hn]
  unfold undoCore undoAt
  rw [hu, heff]

/-- **A release is invisible to a log that deletes the interface.** -/
theorem unwind_release {d : Driver} {log : List Command} (h : ∃ u ∈ log, effect u = .delIface name)
    (c : Core) : unwind (undoCore d) log (c.release name) = unwind (undoCore d) log c := by
  obtain ⟨u, hu, heff⟩ := h
  exact unwind_absorb (Core.release name) (fun u' _ a => undoCore_release d u' name a) hu
    (undoCore_release_delIface heff d) c

/-! ## The inverse of a step -/

section Step

variable {d : Driver} {s : Step} {π : Pair} {c : Core}

/-- A step with an inverse is a pair with one. -/
theorem Step.Is.undo_some (hs : s.Is π) (hz : s.undo.isZero = false) :
    ∃ u, π.undo = some u := by
  rw [hs.undo_isZero, Option.isNone_eq_false_iff] at hz
  exact Option.isSome_iff_exists.mp hz

/-- A command that succeeded was valid. -/
theorem valid_of_ok (h : ((effect u).on d c).2.2 = none) : validateCommand u = none := by
  cases hv : validateCommand u with
  | none => rfl
  | some msg =>
    unfold effect at h
    rw [hv] at h
    cases h

/-- After the step succeeded, its inverse leads back unless it is refused. -/
theorem Step.Is.undo_back (hs : s.Is π) (hz : s.undo.isZero = false)
    (hrun : ((effect s.run).on d c).2.2 = none) (hready : π.Ready c) (hmatch : π.Matched)
    {c' : Core} (h : undoCore d s.undo ((effect s.run).on d c).1 = some c') : c' = c := by
  have hpair := hs.run_eq (valid_of_ok hrun)
  rw [hpair] at hrun h
  obtain ⟨u, hu⟩ := hs.undo_some hz
  cases hv : validateCommand s.undo with
  | none =>
    rw [undoCore_eq h, hs.undo_eq u hu hv]
    exact Pair.undo_done hrun hready hmatch hu
  | some msg =>
    rw [undoCore_invalid (hs.undo_path hz) (by simp [hv])] at h
    cases h

/-- Where it has nothing to do, the inverse of a step changes nothing. -/
theorem Step.Is.undo_still (hs : s.Is π) (hz : s.undo.isZero = false)
    (hidle : validateCommand s.undo = none → π.Idle c)
    {c' : Core} (h : undoCore d s.undo c = some c') : c' = c := by
  obtain ⟨u, hu⟩ := hs.undo_some hz
  cases hv : validateCommand s.undo with
  | none =>
    rw [undoCore_eq h, hs.undo_eq u hu hv]
    exact Pair.undo_idle (hidle hv) hu
  | some msg =>
    rw [undoCore_invalid (hs.undo_path hz) (by simp [hv])] at h
    cases h

/-- After the step succeeded, its inverse is not refused, and the objects are
the ones there were. -/
theorem Step.Is.undo_runs (hs : s.Is π) (hz : s.undo.isZero = false)
    (hv : validateCommand s.undo = none) (hrun : ((effect s.run).on d c).2.2 = none)
    (hmatch : π.Matched) (hstand : π.Standing c) :
    ∃ c', undoCore d s.undo ((effect s.run).on d c).1 = some c' ∧ c'.Agree c := by
  have hpair := hs.run_eq (valid_of_ok hrun)
  rw [hpair] at hrun ⊢
  obtain ⟨u, hu⟩ := hs.undo_some hz
  obtain ⟨hok, hagree⟩ := Pair.undo_runs hrun hmatch hstand hu
  rw [← hs.undo_eq u hu hv] at hok hagree
  exact ⟨_, undoCore_of_ok hok, hagree⟩

/-- Where it has nothing to do, the inverse of a step is not refused. -/
theorem Step.Is.undo_still_runs (hs : s.Is π) (hz : s.undo.isZero = false)
    (hv : validateCommand s.undo = none) (hidle : π.Idle c) (hallowed : π.Allowed d)
    (hstand : π.Standing c) : undoCore d s.undo c = some c := by
  obtain ⟨u, hu⟩ := hs.undo_some hz
  rw [← hs.undo_eq u hu hv] at hu
  exact Pair.undo_idle_runs hidle hallowed hstand hs.removal hu

end Step

end Caspian.Netcfg
