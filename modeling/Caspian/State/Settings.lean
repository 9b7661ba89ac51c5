import Caspian.State.Reload

/-!
# Settings chosen for a configuration

A spoof name and the two splits are chosen for the server of the stored
configuration, so they should not outlive its text.  `SetProxyConfig` takes them
back when it replaces the text.  `RecordRefresh` replaces it too and leaves them
as they are: `settings_fresh_iff` says that they are those of the stored text,
in every state of a run, exactly if no refresh succeeds while one is set.
-/

namespace Caspian.Persist

open Verified

variable {T : Type} [DecidableEq T] (lib : Library) (c : TimeFormat T)

/-! ## Runs -/

/-- No spoof name and no split. -/
def ProxyConfig.Unset (p : ProxyConfig T) : Prop :=
  p.spoofSNI = [] ∧ p.tcpSplit = false ∧ p.tlsRecordSplit = false

def ProxyConfig.SameSettings (p q : ProxyConfig T) : Prop :=
  p.spoofSNI = q.spoofSNI ∧ p.tcpSplit = q.tcpSplit ∧ p.tlsRecordSplit = q.tlsRecordSplit

def Setter.isRefresh : Setter T → Bool
  | .recordRefresh .. => true
  | _ => false

/-- The store after some calls, the last one first.  A call may fail. -/
def run (w : World T) : List (Step T) → World T
  | [] => w
  | s :: earlier => (s.apply lib c (run w earlier)).2

/-- The call is a refresh that goes through. -/
def Refreshes (w : World T) (s : Step T) (earlier : List (Step T)) : Prop :=
  s.setter.isRefresh = true ∧ (s.apply lib c (run lib c w earlier)).1 = .ok ()

/-- Whether the spoof name was stored after the text last changed, and whether the
splits were. -/
def chosen (w : World T) : List (Step T) → Bool × Bool
  | [] => (false, false)
  | s :: earlier =>
    match s.apply lib c (run lib c w earlier) with
    | (.error _, _) => chosen w earlier
    | (.ok (), w') =>
      if w'.cur.proxy.raw ≠ (run lib c w earlier).cur.proxy.raw then (false, false)
      else
        match s.setter with
        | .setSpoofSNI _ => (true, (chosen w earlier).2)
        | .setDPISettings .. => (true, true)
        | _ => chosen w earlier

/-- What is set was stored after the text last changed. -/
def Fresh (w : World T) (steps : List (Step T)) : Prop :=
  let p := (run lib c w steps).cur.proxy
  (p.spoofSNI ≠ [] → (chosen lib c w steps).1 = true) ∧
    (p.tcpSplit = true ∨ p.tlsRecordSplit = true → (chosen lib c w steps).2 = true)

/-! ## One call -/

variable {lib c}

omit [DecidableEq T] in
/-- What a setter does to the text and the settings. -/
theorem change_settings {s : Setter T} {now : T} {st st' : State T}
    (h : s.change lib c now st = .ok st') :
    match s with
    | .setProxyConfig .. => st'.proxy.Unset
    | .setSpoofSNI _ => st'.proxy.raw = st.proxy.raw ∧
        st'.proxy.tcpSplit = st.proxy.tcpSplit ∧ st'.proxy.tlsRecordSplit = st.proxy.tlsRecordSplit
    | .setDPISettings .. => st'.proxy.raw = st.proxy.raw
    | .recordRefresh .. => st'.proxy.SameSettings st.proxy
    | _ => st'.proxy.raw = st.proxy.raw ∧ st'.proxy.SameSettings st.proxy := by
  cases s with
  | save | setHotspot =>
    cases h
    exact ⟨rfl, rfl, rfl, rfl⟩
  | saveAdvanced =>
    simp only [Setter.change] at h
    split at h <;> cases h <;> exact ⟨rfl, rfl, rfl, rfl⟩
  | setPanelPassword plaintext salt key =>
    cases hhash : hashPassword plaintext salt key with
    | error e => simp [Setter.change, hhash, Except.map] at h
    | ok hash =>
      simp only [Setter.change, hhash, Except.map] at h
      cases h
      exact ⟨rfl, rfl, rfl, rfl⟩
  | setSubscriptionURL u =>
    cases hurl : validateSubscriptionURL lib u with
    | error e => simp [Setter.change, hurl, Except.map] at h
    | ok u =>
      simp only [Setter.change, hurl, Except.map] at h
      cases h
      exact ⟨rfl, rfl, rfl, rfl⟩
  | setProxyConfig raw scheme label =>
    simp only [Setter.change] at h
    split at h <;> cases h
    exact ⟨rfl, rfl, rfl⟩
  | selectProxyEntry i =>
    simp only [Setter.change] at h
    split at h
    · cases h
    split at h <;> cases h
    exact ⟨rfl, rfl, rfl, rfl⟩
  | setSpoofSNI name =>
    simp only [Setter.change, setSpoof] at h
    split at h
    · cases h
    split at h <;> cases h
    exact ⟨rfl, rfl, rfl⟩
  | setDPISettings name tcpSplit tlsRecordSplit =>
    simp only [Setter.change, setSpoof] at h
    split at h
    · cases h
    split at h <;> cases h
    rfl
  | recordRefresh raw scheme label q time =>
    simp only [Setter.change] at h
    split at h
    · cases h
    split at h
    · cases h
    split at h <;> cases h
    exact ⟨rfl, rfl, rfl⟩

/-- A call that fails leaves the state as it was. -/
theorem apply_error {w w' : World T} {s : Step T} {e : UpdateError}
    (h : s.apply lib c w = (.error e, w')) : w'.cur = w.cur := by
  unfold Step.apply update at h
  repeat' split at h
  all_goals cases h <;> rfl

theorem apply_ok {w w' : World T} {s : Step T} (h : s.apply lib c w = (.ok (), w')) :
    ∃ st, s.setter.change lib c s.before w.cur = .ok st ∧ w'.cur.proxy = st.proxy := by
  unfold Step.apply update at h
  dsimp only at h
  cases hchange : s.setter.change lib c s.before w.cur with
  | error e =>
    rw [hchange] at h
    cases h
  | ok st =>
    refine ⟨st, rfl, ?_⟩
    simp only [hchange] at h
    repeat' split at h
    all_goals cases h <;> rfl

/-- A refresh keeps the settings. -/
theorem refresh_settings {w : World T} {s : Step T} {earlier : List (Step T)}
    (h : Refreshes lib c w s earlier) :
    (run lib c w (s :: earlier)).cur.proxy.SameSettings (run lib c w earlier).cur.proxy := by
  obtain ⟨hrefresh, hok⟩ := h
  rw [run]
  cases happly : s.apply lib c (run lib c w earlier) with
  | mk r w' =>
    rw [happly] at hok
    cases hok
    obtain ⟨st, hchange, hproxy⟩ := apply_ok happly
    obtain ⟨setter, before, now, faults⟩ := s
    cases setter <;> cases hrefresh
    rw [hproxy]
    exact change_settings hchange

theorem fresh_of_unset {w : World T} {steps : List (Step T)}
    (h : (run lib c w steps).cur.proxy.Unset) : Fresh lib c w steps := by
  obtain ⟨hname, htcp, htls⟩ := h
  unfold Fresh
  simp [hname, htcp, htls]

/-- A call keeps the settings fresh, unless it is a refresh with one set. -/
theorem fresh_cons {w : World T} {s : Step T} {earlier : List (Step T)}
    (hfresh : Fresh lib c w earlier)
    (hunset : Refreshes lib c w s earlier → (run lib c w earlier).cur.proxy.Unset) :
    Fresh lib c w (s :: earlier) := by
  cases happly : s.apply lib c (run lib c w earlier) with
  | mk r w' =>
    have hrun : run lib c w (s :: earlier) = w' := by rw [run, happly]
    cases r with
    | error e =>
      have hchosen : chosen lib c w (s :: earlier) = chosen lib c w earlier := by
        rw [chosen, happly]
      unfold Fresh at hfresh ⊢
      rwa [hrun, hchosen, apply_error happly]
    | ok u =>
      obtain ⟨st, hchange, hproxy⟩ := apply_ok happly
      have hsettings := change_settings hchange
      by_cases hunset' : w'.cur.proxy.Unset
      · exact fresh_of_unset (hrun ▸ hunset')
      have hrefresh : s.setter.isRefresh = false := by
        rw [Bool.eq_false_iff]
        intro hrefresh
        have hgoes : Refreshes lib c w s earlier := ⟨hrefresh, by rw [happly]⟩
        obtain ⟨hname, htcp, htls⟩ := refresh_settings hgoes
        rw [hrun] at hname htcp htls
        obtain ⟨hname', htcp', htls'⟩ := hunset hgoes
        exact hunset' ⟨hname.trans hname', htcp.trans htcp', htls.trans htls'⟩
      unfold Fresh at hfresh ⊢
      rw [hrun, chosen, happly]
      obtain ⟨setter, before, now, faults⟩ := s
      rw [hproxy] at hunset' ⊢
      -- the text is as it was, so a setting that was fresh stays so
      cases setter with
      | setProxyConfig raw scheme label => exact absurd hsettings hunset'
      | recordRefresh raw scheme label q time => cases hrefresh
      | setSpoofSNI name =>
        obtain ⟨hraw, htcp, htls⟩ := hsettings
        simp only [hproxy, hraw, htcp, htls, ne_eq, not_true_eq_false, if_false]
        exact ⟨fun _ => trivial, hfresh.2⟩
      | setDPISettings name tcpSplit tlsRecordSplit =>
        have hraw : st.proxy.raw = _ := hsettings
        simp only [hproxy, hraw, ne_eq, not_true_eq_false, if_false]
        exact ⟨fun _ => trivial, fun _ => trivial⟩
      | _ =>
        obtain ⟨hraw, hname, htcp, htls⟩ := hsettings
        simp only [hproxy, hraw, hname, htcp, htls, ne_eq, not_true_eq_false, if_false]
        exact hfresh

/-! ## Whole runs -/

/-- In every state of a run what is set was stored after the text last changed,
and a refresh takes the settings back, exactly if nothing is set when a refresh
goes through. -/
theorem settings_fresh_iff {w : World T} (hstart : w.cur.proxy.Unset) (steps : List (Step T)) :
    ((∀ part, part <:+ steps → Fresh lib c w part) ∧
        ∀ s earlier, (s :: earlier) <:+ steps → Refreshes lib c w s earlier →
          (run lib c w (s :: earlier)).cur.proxy.Unset) ↔
      ∀ s earlier, (s :: earlier) <:+ steps → Refreshes lib c w s earlier →
        (run lib c w earlier).cur.proxy.Unset := by
  have hkeeps : ∀ s earlier, Refreshes lib c w s earlier →
      ((run lib c w (s :: earlier)).cur.proxy.Unset ↔ (run lib c w earlier).cur.proxy.Unset) := by
    intro s earlier hgoes
    obtain ⟨hname, htcp, htls⟩ := refresh_settings hgoes
    unfold ProxyConfig.Unset
    rw [hname, htcp, htls]
  constructor
  · rintro ⟨-, hreset⟩ s earlier hpart hgoes
    exact (hkeeps s earlier hgoes).mp (hreset s earlier hpart hgoes)
  · intro hunset
    refine ⟨fun part hpart => ?_, fun s earlier hpart hgoes =>
      (hkeeps s earlier hgoes).mpr (hunset s earlier hpart hgoes)⟩
    induction part with
    | nil => exact fresh_of_unset hstart
    | cons s earlier ih =>
      have hearlier : earlier <:+ steps := (List.suffix_cons s earlier).trans hpart
      exact fresh_cons (ih hearlier) (hunset s earlier hpart)

/-- A library that reads every address as one of a provider. -/
def provider : Library := { noNames with parseURL := fun _ => some ⟨ascii "https", false, ascii "host"⟩ }

/-- A configuration is pasted, split, and refreshed from the provider's address. -/
def refreshed : List (Step Nat) :=
  [ ⟨.recordRefresh (ascii "vless://b") (ascii "vless") [] {} 4, 0, 4, {}⟩,
    ⟨.setSubscriptionURL (ascii "https://host"), 0, 3, {}⟩,
    ⟨.setDPISettings [] true false, 0, 2, {}⟩,
    ⟨.setProxyConfig (ascii "vless://a") (ascii "vless") [], 0, 1, {}⟩ ]

theorem unrefreshed_fresh :
    firstStore.cur.proxy.Unset ∧ Fresh provider strokes firstStore refreshed.tail := by
  have hstart : firstStore.cur.proxy.Unset := ⟨rfl, rfl, rfl⟩
  refine ⟨hstart, ((settings_fresh_iff hstart refreshed.tail).mpr ?_).1 _ (List.suffix_refl _)⟩
  rintro s earlier hpart ⟨hrefresh, -⟩
  have hmem : s ∈ refreshed.tail := hpart.subset List.mem_cons_self
  have hnone : ∀ s ∈ refreshed.tail, s.setter.isRefresh = false := by decide
  rw [hnone s hmem] at hrefresh
  cases hrefresh

/-- The text is new, the split was chosen for the old one. -/
theorem split_outlives_refresh :
    Refreshes provider strokes firstStore ⟨.recordRefresh (ascii "vless://b") (ascii "vless") [] {} 4,
        0, 4, {}⟩ refreshed.tail ∧
      (run provider strokes firstStore refreshed).cur.proxy.raw = ascii "vless://b" ∧
      (run provider strokes firstStore refreshed).cur.proxy.tcpSplit = true ∧
      chosen provider strokes firstStore refreshed = (false, false) := by
  unfold Refreshes
  decide

end Caspian.Persist
