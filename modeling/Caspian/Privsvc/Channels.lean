import Caspian.Netcfg.Tuning
import Caspian.Privsvc.HotspotPlan

/-!
# Three notions of a channel

The planner takes a channel from the frequencies a radio reports usable, the
service derives a band from the number alone, and the access point's own table
decides which numbers of a band it will emit.  `channels_agree_iff` says for
which radios the three agree: those whose usable channels are all 1 to 13 in
2.4 GHz or among the nine of 5 GHz.
-/

namespace Caspian.Privsvc

open Verified Netip Netcfg
open Hotspot (APConfig Band RadioConstraint validChannel channels5GHz)

/-! ## What a plan offers -/

/-- The plans made from one reading of the machine under one set of options. -/
inductive PlannedOn (f : Facts) (o : Options) : Plan → Prop where
  | network {servers : List Addr} {p : Plan} (h : planNetwork f servers o = .ok p) :
      PlannedOn f o p
  | takeover {p q : Plan} (hp : PlannedOn f o p) (h : hotspotTakeover p f = .ok q) :
      PlannedOn f o q

/-- A channel of the plan: its own, or an override it accepts. -/
def Offered (p : Plan) (req : StartRequest) (ch : Int) : Prop :=
  ch ≠ 0 ∧ (ch = p.channel ∨
    ch = req.hotspot.channel ∧ validateAgainstPlan req p = .ok ())

/-- The band derived from the number, as the planner names it. -/
def derivedBand (ch : Int) : RadioBand := radioBand (bandForChannel ch).text

/-- The access point takes the channel, the radio's constraint takes it, and the
radio reports it usable in the band derived from it. -/
def Agreed (f : Facts) (p : Plan) (ch : Int) : Prop :=
  validChannel (bandForChannel ch) ch = .ok () ∧
    (∀ cfg : APConfig, cfg.channel = ch →
      (radioConstraintFor f p ch).check cfg = .ok ()) ∧
    ∃ phy, f.phyByName p.hotspotPhy = some phy ∧ ch ∈ phy.usableChannelsIn (derivedBand ch)

/-- A number the access point emits, on a radio that reports it usable in the
band it belongs to. -/
def Renderable (phy : Phy) (ch : Int) : Prop :=
  (1 ≤ ch ∧ ch ≤ 13 ∧ ch ∈ phy.usableChannelsIn .band2GHz) ∨
    (ch ∈ channels5GHz ∧ ch ∈ phy.usableChannelsIn .band5GHz)

instance (phy : Phy) (ch : Int) : Decidable (Renderable phy ch) := by
  unfold Renderable
  infer_instance

variable {phy : Phy} {ch : Int}

theorem usableChannelsIn_subset {band : RadioBand} (h : ch ∈ phy.usableChannelsIn band) :
    ch ∈ phy.usableChannels := by
  unfold Phy.usableChannels Phy.usableChannelsIn at *
  rw [List.mem_insertionSort, List.mem_map] at h ⊢
  obtain ⟨fr, hfr, rfl⟩ := h
  rw [List.mem_filter] at hfr
  refine ⟨fr, List.mem_filter.mpr ⟨hfr.1, ?_⟩, rfl⟩
  have hboth := (Bool.and_eq_true_iff.mp hfr.2).1
  simp [hboth]

theorem usableChannels_pos (h : ch ∈ phy.usableChannels) : 0 < ch := by
  unfold Phy.usableChannels Phy.usableChannelsIn at h
  rw [List.mem_insertionSort, List.mem_map] at h
  obtain ⟨fr, hfr, rfl⟩ := h
  simp only [List.mem_filter, Bool.and_eq_true, decide_eq_true_eq] at hfr
  exact hfr.2.1.2

theorem mem_of_headD {l : List Int} (h : l.headD 0 = ch) (hne : ch ≠ 0) : ch ∈ l := by
  cases l with
  | nil => exact absurd h.symm hne
  | cons a rest =>
    rw [← h]
    exact List.mem_cons_self

/-- The channel a radio offers is one it reports usable. -/
theorem pickChannel_mem {band : RadioBand} (hne : phy.pickChannel band ≠ 0) :
    phy.pickChannel band ∈ phy.usableChannels := by
  unfold Phy.pickChannel at *
  split at hne
  · rename_i hauto
    rw [if_pos hauto]
    cases hin : phy.usableChannelsIn .band2GHz with
    | nil =>
      rw [hin] at hne
      exact mem_of_headD rfl hne
    | cons a rest =>
      have ha : a ∈ phy.usableChannelsIn .band2GHz := by simp [hin]
      exact usableChannelsIn_subset ha
  · rename_i hauto
    rw [if_neg hauto]
    exact usableChannelsIn_subset (mem_of_headD rfl hne)

variable {f : Facts} {p : Plan}

/-- A plan is on the radio the planner picked, and without a pin takes its
channel from the usable ones of that radio. -/
theorem PlannedOn.radio {o : Options} (h : PlannedOn f o p) :
    ∃ route c, chooseUplink f (withDefaults o) = .ok route ∧
      pickRadio f route.dev (withDefaults o) = some c ∧
      p.hotspotPhy = c.phy.name ∧ p.usableChannel = c.phy.usableChannels ∧
      (p.channelPinned = false → p.channel ≠ 0 → p.channel ∈ c.phy.usableChannels) := by
  induction h with
  | @network servers p h =>
    obtain ⟨route, c, hroute, hc, -, -, -, hphy, husable⟩ := planNetwork_roles h
    refine ⟨route, c, hroute, hc, hphy, husable, fun hpin hne => ?_⟩
    have htuned := planNetwork_tuned h hroute hc
    rw [ApCandidate.Tuned, if_neg (by simp [hpin])] at htuned
    rw [htuned.1] at hne ⊢
    exact pickChannel_mem hne
  | @takeover p q hp h ih =>
    obtain ⟨route, c, hroute, hc, hphy, husable, -⟩ := ih
    obtain ⟨-, w, -, -, rfl⟩ := hotspotTakeover_from h
    refine ⟨route, c, hroute, hc, hphy, husable, fun _ hne => ?_⟩
    rw [← husable]
    exact mem_of_headD rfl hne

theorem phyByName_isSome (h : phy ∈ f.phys) : ∃ phy', f.phyByName phy.name = some phy' := by
  rw [← Option.isSome_iff_exists, Facts.phyByName, List.find?_isSome]
  exact ⟨phy, h, by simp⟩

/-! ## What takes a channel -/

theorem maxAPs_nonneg (combo : Combination) : 0 ≤ maxAPs combo := by
  refine List.foldlRecOn combo.limits _ (motive := fun m : Int => 0 ≤ m) (le_refl 0) ?_
  intro m hm lim _
  split
  next hlim => omega
  · exact hm

/-- A constraint without a channel of its own. -/
theorem check_free {rc : RadioConstraint} {cfg : APConfig} (hfree : rc.clientChannel = 0) :
    rc.check cfg = .ok () ↔ rc.supportsAP = true ∧ 1 ≤ rc.maxAPs ∧
      (rc.allowedChannels = [] ∨ cfg.channel ∈ rc.allowedChannels) := by
  have hpinned : rc.pinnedChannel = none := by
    unfold RadioConstraint.pinnedChannel
    rw [if_neg (fun h => h.2 hfree)]
  unfold RadioConstraint.check
  rw [hpinned]
  dsimp only
  constructor
  · intro h
    split at h
    · cases h
    next hap =>
      split at h
      · cases h
      next haps =>
        obtain ⟨hout, -⟩ := Outcome.guard_ok h
        refine ⟨Bool.eq_true_of_not_eq_false hap, by omega, ?_⟩
        by_contra hnone
        exact hout (not_or.mp hnone)
  · rintro ⟨hap, haps, hin⟩
    rw [if_neg (by rw [hap]; decide), if_neg (by omega), if_neg (fun hout => not_or.mpr hout hin)]
    rfl

/-- The constraint of a radio nothing pins: it can be an access point, and takes
its usable channels, or any when it reported none. -/
theorem check_unpinned {cfg : APConfig} (hphy : f.phyByName p.hotspotPhy = some phy)
    (hpin : p.channelPinned = false) :
    (radioConstraintFor f p ch).check cfg = .ok () ↔
      phy.supportsAP = true ∧
        (phy.usableChannels = [] ∨ cfg.channel ∈ phy.usableChannels) := by
  have hnonneg := maxAPs_nonneg (phy.apWithStation.getD {})
  unfold radioConstraintFor
  rw [hphy, check_free (by simp [hpin])]
  refine and_congr_right fun hap => ?_
  have hone : 1 ≤ if maxAPs (phy.apWithStation.getD {}) = 0 ∧ phy.supportsAP = true then 1
      else maxAPs (phy.apWithStation.getD {}) := by
    by_cases hzero : maxAPs (phy.apWithStation.getD {}) = 0
    · rw [if_pos ⟨hzero, hap⟩]
    · rw [if_neg (fun h => hzero h.1)]
      omega
  exact and_iff_right hone

/-- The access point takes a number in the band derived from it when it is one
of its table. -/
theorem validChannel_derived :
    validChannel (bandForChannel ch) ch = .ok () ↔ 1 ≤ ch ∧ ch ≤ 13 ∨ ch ∈ channels5GHz := by
  unfold bandForChannel
  by_cases hhigh : 14 < ch
  · rw [if_pos hhigh]
    have hlow : ¬(1 ≤ ch ∧ ch ≤ 13) := by omega
    by_cases hmem : ch ∈ channels5GHz
    · simp [validChannel, hmem]
    · simp [validChannel, hmem, hlow]
  · rw [if_neg hhigh]
    have hnot : ch ∉ channels5GHz := by
      intro hmem
      have hall : ∀ x ∈ channels5GHz, 14 < x := by decide
      exact hhigh (hall ch hmem)
    by_cases hout : ch < 1 ∨ 13 < ch
    · have hlow : ¬(1 ≤ ch ∧ ch ≤ 13) := by omega
      simp [validChannel, hout, hnot, hlow]
    · have hlow : 1 ≤ ch ∧ ch ≤ 13 := by omega
      simp [validChannel, hout, hlow]

theorem derivedBand_eq (ch : Int) :
    derivedBand ch = if 14 < ch then .band5GHz else .band2GHz := by
  unfold derivedBand bandForChannel
  split <;> decide

/-- A channel of the radio's table. -/
theorem renderable_iff :
    Renderable phy ch ↔ (1 ≤ ch ∧ ch ≤ 13 ∨ ch ∈ channels5GHz) ∧
      ch ∈ phy.usableChannelsIn (derivedBand ch) := by
  have hall : ∀ x ∈ channels5GHz, 14 < x := by decide
  rw [derivedBand_eq, Renderable]
  by_cases hhigh : 14 < ch
  · have hlow : ¬ch ≤ 13 := by omega
    simp [hhigh, hlow]
  · have hnot : ch ∉ channels5GHz := fun hmem => hhigh (hall ch hmem)
    simp [hhigh, hnot, and_assoc]

/-- An unpinned plan agrees on a channel that is usable on its radio exactly
when the radio renders it. -/
theorem agreed_iff (hphy : f.phyByName p.hotspotPhy = some phy) (hpin : p.channelPinned = false) :
    Agreed f p ch ↔ phy.supportsAP = true ∧ Renderable phy ch := by
  rw [renderable_iff, Agreed, validChannel_derived, hphy]
  constructor
  · rintro ⟨hnum, hcheck, phy', hphy', hin⟩
    obtain rfl := Option.some.inj hphy'
    have hap := ((check_unpinned hphy hpin).mp (hcheck ⟨"", "", "", "", "", ch, .band2GHz, ""⟩ rfl)).1
    exact ⟨hap, hnum, hin⟩
  · rintro ⟨hap, hnum, hin⟩
    refine ⟨hnum, fun cfg hcfg => ?_, phy, rfl, hin⟩
    rw [check_unpinned hphy hpin, hcfg]
    exact ⟨hap, .inr (usableChannelsIn_subset hin)⟩

/-! ## Agreement -/

/-- An override of a plan without a pin is accepted when it is usable, or when
the radio reported nothing usable. -/
theorem validateAgainstPlan_unpinned {req : StartRequest} (hpin : p.channelPinned = false) :
    validateAgainstPlan req p = .ok () ↔
      req.hotspot.channel = 0 ∨ p.usableChannel = [] ∨
        req.hotspot.channel ∈ p.usableChannel := by
  unfold validateAgainstPlan
  by_cases hzero : req.hotspot.channel = 0
  · simp [hzero]
  · by_cases hall : p.usableChannel = []
    · simp [hzero, hpin, hall]
    · by_cases hmem : req.hotspot.channel ∈ p.usableChannel
      · simp [hzero, hpin, hmem]
      · simp [hzero, hpin, hall, hmem, fail]

/-- A request that overrides the channel and leaves the rest. -/
def channelRequest (ch : Int) : StartRequest := { hotspot := { channel := ch } }

/-- The radio picked reports something usable, and whatever it reports is on the
access point's table, in the band the number belongs to.  The constraint looks
the radio up again by its name. -/
def OnTable (f : Facts) (c : ApCandidate) : Prop :=
  c.phy.usableChannels ≠ [] ∧
    ∃ phy ∈ f.phyByName c.phy.name, phy.supportsAP = true ∧
      ∀ ch ∈ c.phy.usableChannels, Renderable phy ch

/-- **Without a pin the planner, the service and the access point agree on every
channel a plan offers exactly when the radio's usable channels are all 1 to 13 in
2.4 GHz or among the nine of 5 GHz.** -/
theorem channels_agree_iff {f : Facts} {o : Options} {p : Plan} (h : PlannedOn f o p)
    (hpin : p.channelPinned = false) :
    ∃ route c, chooseUplink f (withDefaults o) = .ok route ∧
      pickRadio f route.dev (withDefaults o) = some c ∧
      ((∀ req ch, Offered p req ch → Agreed f p ch) ↔ OnTable f c) := by
  obtain ⟨route, c, hroute, hc, hname, husable, hown⟩ := h.radio
  obtain ⟨phy, hphy⟩ := phyByName_isSome (phy_of_apCandidates (pickRadio_mem hc)).1
  have hradio : f.phyByName p.hotspotPhy = some phy := by rw [hname, hphy]
  have hoverride : ∀ {ch : Int}, ch ≠ 0 → (p.usableChannel = [] ∨ ch ∈ p.usableChannel) →
      Offered p (channelRequest ch) ch := fun hne hin =>
    ⟨hne, .inr ⟨rfl, (validateAgainstPlan_unpinned hpin).mpr (.inr hin)⟩⟩
  refine ⟨route, c, hroute, hc, ?_, ?_⟩
  · intro hall
    have hagreed : ∀ {ch : Int}, ch ≠ 0 → (p.usableChannel = [] ∨ ch ∈ p.usableChannel) →
        phy.supportsAP = true ∧ Renderable phy ch := fun hne hin =>
      (agreed_iff hradio hpin).mp (hall _ _ (hoverride hne hin))
    -- Channel 14 is on no table, so a radio that takes everything does not agree.
    have hsome : p.usableChannel ≠ [] := by
      intro hnone
      have hjapan := (hagreed (by decide : (14 : Int) ≠ 0) (.inl hnone)).2
      have hoff : (14 : Int) ∉ channels5GHz := by decide
      obtain ⟨-, hle, -⟩ | ⟨hmem, -⟩ := hjapan
      · omega
      · exact hoff hmem
    rw [husable] at hsome hagreed
    have hpos : ∀ ch ∈ c.phy.usableChannels, ch ≠ 0 := fun ch hch =>
      ne_of_gt (usableChannels_pos hch)
    obtain ⟨first, hfirst⟩ := List.exists_mem_of_ne_nil _ hsome
    exact ⟨hsome, phy, hphy, (hagreed (hpos first hfirst) (.inr hfirst)).1,
      fun ch hch => (hagreed (hpos ch hch) (.inr hch)).2⟩
  · rintro ⟨hsome, phy', hphy', hap, hall⟩ req ch ⟨hne, hch⟩
    obtain rfl : phy = phy' := Option.some.inj (hphy.symm.trans hphy')
    refine (agreed_iff hradio hpin).mpr ⟨hap, hall ch ?_⟩
    obtain rfl | ⟨rfl, hvalid⟩ := hch
    · exact hown hpin hne
    · rw [validateAgainstPlan_unpinned hpin, husable] at hvalid
      obtain hzero | hnone | hmem := hvalid
      · exact absurd hzero hne
      · exact absurd hnone hsome
      · exact hmem

/-- A cabled machine whose idle radio reports these frequencies. -/
def idleRadioFacts (frequencies : List Frequency) : Facts :=
  { cabledFacts with
    wireless := [{ name := "wlan0", phy := "phy0", type := "managed", linkKnown := true }]
    phys := [{ name := "phy0", modes := ["managed", "AP"], frequencies := frequencies }] }

/-- The plan for that machine under the defaults. -/
def idleRadioPlan (frequencies : List Frequency) : Plan :=
  match planNetwork (idleRadioFacts frequencies) [.v4 0xCB007107#32] defaultOptions with
  | .ok p => p
  | .error _ => {}

/-- Channel 1 of 2.4 GHz and channel 36 of 5 GHz. -/
def dualBand : List Frequency := [{ mhz := 2412, channel := 1 }, { mhz := 5180, channel := 36 }]

/-- An ordinary dual-band radio. -/
theorem dualBand_agrees :
    (idleRadioPlan dualBand).channel = 1 ∧ Offered (idleRadioPlan dualBand) (channelRequest 36) 36 ∧
      ∀ req ch, Offered (idleRadioPlan dualBand) req ch →
        Agreed (idleRadioFacts dualBand) (idleRadioPlan dualBand) ch := by
  have hplan : planNetwork (idleRadioFacts dualBand) [.v4 0xCB007107#32] defaultOptions =
      .ok (idleRadioPlan dualBand) := rfl
  obtain ⟨route, c, hroute, hc, hiff⟩ := channels_agree_iff (.network hplan) (by decide)
  have hcable : cable = route := Except.ok.inj
    ((rfl : chooseUplink (idleRadioFacts dualBand) (withDefaults defaultOptions) =
      .ok cable).symm.trans hroute)
  subst hcable
  have htable : ∀ c ∈ pickRadio (idleRadioFacts dualBand) cable.dev (withDefaults defaultOptions),
      OnTable (idleRadioFacts dualBand) c := by
    unfold OnTable
    decide
  exact ⟨by decide, by unfold Offered; decide, hiff.mpr (htable c hc)⟩

/-- Channel 14 of 2.4 GHz alone, as a radio reports it in Japan. -/
def japanBand : List Frequency := [{ mhz := 2484, channel := 14 }]

/-- Channel 36 of 5 GHz and channel 1 of 6 GHz. -/
def upperBands : List Frequency := [{ mhz := 5180, channel := 36 }, { mhz := 5955, channel := 1 }]

/-- The planner takes channel 14, which the access point refuses; and it takes
channel 1 of 6 GHz, which the service renders as channel 1 of 2.4 GHz, where this
radio has no channel at all. -/
theorem upperBands_disagree :
    (planNetwork (idleRadioFacts japanBand) [.v4 0xCB007107#32] defaultOptions =
        .ok (idleRadioPlan japanBand) ∧
      (idleRadioPlan japanBand).channelPinned = false ∧ (idleRadioPlan japanBand).channel = 14 ∧
      validChannel (bandForChannel 14) 14 ≠ .ok ()) ∧
    (planNetwork (idleRadioFacts upperBands) [.v4 0xCB007107#32] defaultOptions =
        .ok (idleRadioPlan upperBands) ∧
      (idleRadioPlan upperBands).channelPinned = false ∧ (idleRadioPlan upperBands).channel = 1 ∧
      bandForChannel 1 = .band2GHz ∧
      ∀ phy ∈ (idleRadioFacts upperBands).phys, phy.usableChannelsIn .band2GHz = []) :=
  ⟨⟨rfl, by decide, by decide, by decide⟩,
    ⟨rfl, by decide, by decide, by decide, by decide⟩⟩

end Caspian.Privsvc
