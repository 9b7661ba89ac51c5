import Caspian.State.Store

/-!
# What a fresh load reads after an update

An update replaces the file in one step, so a fresh `Load` reads the state from
before it or the new one, with its texts as JSON strings carry them.  Which of
the two depends on whether the rename was reached.  The store publishes the new
state a step later, after the directory was flushed: when that fails the file is
new and the store is old.
-/

namespace Caspian.Persist

open Verified

variable {T : Type} [DecidableEq T] {lib : Library} {c : TimeFormat T}

/-! ## The file that was written -/

omit [DecidableEq T] in
theorem migrate_current {st : State T} (h : st.version = currentVersion) : migrate st = .ok st := by
  have hnot : ¬currentVersion < currentVersion := by decide
  have hpos : ¬currentVersion < 0 := by decide
  unfold migrate
  rw [h, if_neg hnot, if_neg hpos, migrateFrom, h, if_neg hnot]

/-- The file an update wrote is read as the new state, with its texts scrubbed. -/
theorem load_written {st : State T} {now : T} {x : Json}
    (h : encodeState c (stamp st now) = some x) :
    load c (.ready (some { contents := some x })) = .ok ((stamp st now).scrub, false) := by
  have hmigrate : migrate (stamp st now).scrub = .ok (stamp st now).scrub := migrate_current rfl
  simp [load, loadContents, decodeState_encodeState h, hmigrate, Except.map]

/-- The texts of a state are texts. -/
def State.Utf8 (st : State T) : Prop := st.scrub = st

/-! ## All or nothing -/

/-- After an error everything is as before, and after a success everything is new:
what readers see, and what a fresh `Load` reads. -/
def AllOrNothing (lib : Library) (c : TimeFormat T) (fn : State T → Except UpdateError (State T))
    (now : T) (f : Faults) (w : World T) : Prop :=
  match update lib c fn now f w with
  | (.error _, w') => w'.cur = w.cur ∧ load c w'.disk = load c w.disk
  | (.ok (), w') => ∃ st, fn w.cur = .ok st ∧ w'.cur = stamp st now ∧
      load c w'.disk = .ok (stamp st now, false)

/-- **An update is all or nothing** exactly if, once the file has been replaced,
the directory can be flushed and the texts of the new state survive as JSON
strings.  The time of the update is one the file does not have yet. -/
theorem update_all_or_nothing_iff {fn : State T → Except UpdateError (State T)} {now : T}
    {f : Faults} {w : World T}
    (hclock : ∀ st first, load c w.disk = .ok (st, first) → st.updatedAt ≠ now) :
    AllOrNothing lib c fn now f w ↔
      ∀ st, fn w.cur = .ok st → validate lib (stamp st now) = .ok () →
        Replaces c (stamp st now) f w.disk → Flushes f ∧ (stamp st now).Utf8 := by
  unfold AllOrNothing update
  cases hfn : fn w.cur with
  | error e => simp
  | ok st =>
    cases hvalid : validate lib (stamp st now) with
    | error text =>
      simp only [true_and, Except.ok.injEq, forall_eq', hvalid]
      simp
    | ok u =>
      simp only [Except.ok.injEq, forall_eq', hvalid, true_imp_iff]
      by_cases hreplaces : Replaces c (stamp st now) f w.disk
      · obtain ⟨x, hx, hwrite⟩ := writeAtomic_replaces hreplaces
        have hload := load_written hx
        rw [hwrite]
        cases hflush : syncDir f with
        | error e =>
          have hnot : ¬Flushes f := by
            rw [← syncDir_ok, hflush]
            simp
          simp only [hreplaces, true_imp_iff, hnot, false_and, iff_false, true_and]
          intro hsame
          rw [hload] at hsame
          exact hclock _ _ hsame.symm rfl
        | ok v =>
          have hdone : Flushes f := syncDir_ok.mp hflush
          simp only [hreplaces, true_imp_iff, hdone, true_and, hload, Except.ok.injEq,
            Prod.mk.injEq, and_true, exists_eq_left', State.Utf8]
      · obtain ⟨e, disk', hwrite, hsame⟩ := writeAtomic_fails hreplaces
        rw [hwrite]
        simp [hreplaces, hsame]

/-- Times as strokes, for trying things out. -/
def strokes : TimeFormat Nat where
  zero := 0
  format n := some (List.replicate n '|')
  parse cs := some cs.length
  parse_format := by
    intro t text h
    cases h
    simp

/-- A library that knows no names. -/
def noNames : Library where
  normalizeName name := if name = [] then some [] else none
  normalize_nil := rfl
  normalize_valid := by
    intro name normalized h
    split_ifs at h
    cases h
    exact Utf8.valid_nil
  parseURL _ := none
  isIP _ := false

/-- A store that has not written anything yet. -/
def firstStore : World Nat := ⟨defaultState strokes, true, .absent⟩

/-- The hotspot's name and passphrase. -/
def nameHotspot : Setter Nat := .setHotspot (ascii "caspian") (ascii "correct horse")

theorem firstStore_all_or_nothing :
    (∀ st first, load strokes firstStore.disk = .ok (st, first) → st.updatedAt ≠ 7) ∧
      AllOrNothing noNames strokes (fun st => nameHotspot.change noNames strokes 6 st) 7 {}
        firstStore := by
  have hclock : ∀ st first, load strokes firstStore.disk = .ok (st, first) → st.updatedAt ≠ 7 := by
    intro st first h
    cases h
    decide
  refine ⟨hclock, (update_all_or_nothing_iff hclock).mpr ?_⟩
  intro st hst _ _
  cases hst
  refine ⟨⟨rfl, rfl⟩, ?_⟩
  unfold State.Utf8
  decide

/-- Its update, with a directory that cannot be flushed. -/
def unflushed : Except UpdateError Unit × World Nat :=
  update noNames strokes (fun st => nameHotspot.change noNames strokes 6 st) 7 { syncDir := true }
    firstStore

/-- The name a fresh `Load` reads. -/
def loadedName (disk : Disk) : Option Bytes :=
  (load strokes disk).toOption.map fun p => p.1.hotspot.ssid

/-- The update fails and the store is as it was, but the file is new. -/
theorem unflushed_replaced : unflushed.1 = .error (.write .flushingDirectory) ∧
    unflushed.2.cur = firstStore.cur ∧ loadedName firstStore.disk = some [] ∧
      loadedName unflushed.2.disk = some (ascii "caspian") := by
  decide

/-! ## Any number of updates -/

/-- What updates leave: everything as it was, or on the disk a state that was
checked, which readers see too if every directory was flushed. -/
def LeavesChecked (lib : Library) (c : TimeFormat T) (flushed : Prop) (w w' : World T) : Prop :=
  (w'.cur = w.cur ∧ load c w'.disk = load c w.disk) ∨
    ∃ st, validate lib st = .ok () ∧ load c w'.disk = .ok (st.scrub, false) ∧
      (flushed → w'.cur = st)

theorem leavesChecked_update (fn : State T → Except UpdateError (State T)) (now : T) (f : Faults)
    (w : World T) : LeavesChecked lib c (Flushes f) w (update lib c fn now f w).2 := by
  unfold update
  cases fn w.cur with
  | error e => exact .inl ⟨rfl, rfl⟩
  | ok st =>
    cases hvalid : validate lib (stamp st now) with
    | error text => exact .inl (by simp [hvalid])
    | ok u =>
      simp only [hvalid]
      by_cases hreplaces : Replaces c (stamp st now) f w.disk
      · obtain ⟨x, hx, hwrite⟩ := writeAtomic_replaces hreplaces
        refine .inr ⟨stamp st now, hvalid, ?_⟩
        rw [hwrite, ← syncDir_ok]
        cases syncDir f with
        | error e => simp [load_written hx]
        | ok v => simp [load_written hx]
      · obtain ⟨e, disk, hwrite, hsame⟩ := writeAtomic_fails hreplaces
        rw [hwrite]
        exact .inl ⟨rfl, hsame⟩

/-- The store after some calls of setters, whether they succeeded or not. -/
def World.after (lib : Library) (c : TimeFormat T) (w : World T) (steps : List (Step T)) : World T :=
  steps.foldl (fun w s => (s.apply lib c w).2) w

/-- **No sequence of updates makes the file unreadable**, whichever calls fail: a
fresh `Load` reads what it read before all of them, or a state that was checked.
If the directory could always be flushed it reads what the store shows. -/
theorem after_readable (w : World T) (steps : List (Step T)) :
    LeavesChecked lib c (∀ s ∈ steps, Flushes s.faults) w (w.after lib c steps) := by
  induction steps generalizing w with
  | nil => exact .inl ⟨rfl, rfl⟩
  | cons s rest ih =>
    have hfirst : LeavesChecked lib c (Flushes s.faults) w (s.apply lib c w).2 :=
      leavesChecked_update _ _ _ _
    obtain ⟨hcur, hload⟩ | ⟨st, hvalid, hload, hcur⟩ := ih (s.apply lib c w).2
    · -- the calls after the first changed nothing
      obtain ⟨hkept, hbefore⟩ | ⟨st, hvalid, hread, hshown⟩ := hfirst
      · exact .inl ⟨hcur.trans hkept, hload.trans hbefore⟩
      · exact .inr ⟨st, hvalid, hload.trans hread, fun h =>
          hcur.trans (hshown (h s List.mem_cons_self))⟩
    · exact .inr ⟨st, hvalid, hload, fun h =>
        hcur fun s' hs' => h s' (List.mem_cons_of_mem _ hs')⟩

end Caspian.Persist
