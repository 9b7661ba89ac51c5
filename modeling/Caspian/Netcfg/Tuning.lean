import Caspian.Netcfg.Roles

/-!
# The band that was asked for

A radio lists its frequencies with a channel number for each.  The planner
filters the list by frequency when it is free to choose, and looks the band of
a number up when the access point has to stay on its neighbour's channel.  The
second is not safe: 6 GHz numbering starts again at 1, so the first frequency
listed under a number need not be the one the neighbour is on.
-/

namespace Caspian.Netcfg

open Netip

/-! ## The lowest usable channel -/

/-- The frequency can carry an access point in the band. -/
def Frequency.In (fr : Frequency) (band : RadioBand) : Prop :=
  fr.usable = true ∧ 0 < fr.channel ∧ bandOf fr.mhz = band

/-- The lowest channel of a usable frequency of the radio in the band. -/
def Phy.LowestIn (phy : Phy) (band : RadioBand) (ch : Int) : Prop :=
  (∃ fr ∈ phy.frequencies, fr.In band ∧ fr.channel = ch) ∧
    ∀ fr ∈ phy.frequencies, fr.In band → ch ≤ fr.channel

instance (fr : Frequency) (band : RadioBand) : Decidable (fr.In band) := by
  unfold Frequency.In
  infer_instance

instance (phy : Phy) (band : RadioBand) (ch : Int) : Decidable (phy.LowestIn band ch) := by
  unfold Phy.LowestIn
  infer_instance

variable {phy : Phy} {band : RadioBand}

theorem Phy.mem_usableChannelsIn (hband : band ≠ .auto) {ch : Int} :
    ch ∈ phy.usableChannelsIn band ↔ ∃ fr ∈ phy.frequencies, fr.In band ∧ fr.channel = ch := by
  unfold usableChannelsIn
  rw [List.mem_insertionSort, List.mem_map]
  simp only [List.mem_filter, Frequency.In, hband, decide_false, Bool.false_or, Bool.and_eq_true,
    decide_eq_true_eq, and_assoc]

/-- The head of the usable channels is the lowest. -/
theorem Phy.lowestIn_of_head (hband : band ≠ .auto) {ch : Int} {rest : List Int}
    (h : phy.usableChannelsIn band = ch :: rest) : phy.LowestIn band ch := by
  have hsorted : (phy.usableChannelsIn band).Pairwise (· ≤ ·) := List.pairwise_insertionSort _ _
  rw [h, List.pairwise_cons] at hsorted
  refine ⟨(mem_usableChannelsIn hband).mp (by simp [h]), fun fr hfr hin => ?_⟩
  have hmem : fr.channel ∈ phy.usableChannelsIn band :=
    (mem_usableChannelsIn hband).mpr ⟨fr, hfr, hin, rfl⟩
  rw [h] at hmem
  rcases List.mem_cons.mp hmem with heq | hmem
  · exact heq.ge
  · exact hsorted.1 _ hmem

/-! ## The channel of a plan -/

/-- The plan's channel is the lowest usable one of the band on the radio, or it
is the neighbour's and the neighbour's frequency, where it is known, is in the
band. -/
def Plan.InBand (p : Plan) (c : ApCandidate) (band : RadioBand) : Prop :=
  c.phy.LowestIn band p.channel ∨
    p.channelPinned = true ∧
      (0 < c.station.freqMHz → bandOf c.station.freqMHz = band)

/-- What has to hold of the radio.  Where the channel is pinned, the neighbour
is in the band, or happens to be on its lowest channel; where it is not, the
options were not replaced by the defaults, or these happen to give the lowest
channel of the band. -/
def ApCandidate.KeepsBand (c : ApCandidate) (uplink : String) (o : Options) : Prop :=
  if (c.seat uplink (withDefaults o)).pinned then
    c.phy.LowestIn o.hotspotBand c.station.channel ∨
      (0 < c.station.freqMHz → bandOf c.station.freqMHz = o.hotspotBand)
  else o.tunName ≠ "" ∨ c.phy.LowestIn o.hotspotBand (c.phy.pickChannel .auto)

instance (p : Plan) (c : ApCandidate) (band : RadioBand) : Decidable (p.InBand c band) := by
  unfold Plan.InBand
  infer_instance

instance (c : ApCandidate) (uplink : String) (o : Options) :
    Decidable (c.KeepsBand uplink o) := by
  unfold ApCandidate.KeepsBand
  infer_instance

theorem withDefaults_band (o : Options) :
    (withDefaults o).hotspotBand = if o.tunName = "" then .auto else o.hotspotBand := by
  unfold withDefaults
  split <;> rfl

theorem Phy.lowestIn_pickChannel (hband : band ≠ .auto) (h : phy.Offers band) :
    phy.LowestIn band (phy.pickChannel band) := by
  cases hin : phy.usableChannelsIn band with
  | nil => exact absurd hin (h hband)
  | cons ch rest =>
    rw [pickChannel, if_neg hband, hin]
    exact lowestIn_of_head hband hin

/-- **The band asked for is the band planned** exactly when the radio keeps it:
a free choice always does, and a pinned channel does when the neighbour's own
frequency is in the band. -/
theorem planned_band_iff {f : Facts} {servers : List Addr} {o : Options} {p : Plan}
    (h : planNetwork f servers o = .ok p) (hband : o.hotspotBand ≠ .auto) :
    ∃ route c, chooseUplink f (withDefaults o) = .ok route ∧
      pickRadio f route.dev (withDefaults o) = some c ∧ p.hotspotPhy = c.phy.name ∧
      (p.InBand c o.hotspotBand ↔ c.KeepsBand route.dev o) := by
  obtain ⟨route, c, hroute, hc, hseat, -, -, hphy, -⟩ := planNetwork_roles h
  refine ⟨route, c, hroute, hc, hphy, ?_⟩
  have hpinned : (c.seat route.dev (withDefaults o)).pinned = p.channelPinned :=
    (congrArg Seat.pinned hseat).symm
  have htuned := planNetwork_tuned h hroute hc
  unfold Plan.InBand ApCandidate.KeepsBand
  unfold ApCandidate.Tuned at htuned
  rw [hpinned]
  cases hpin : p.channelPinned with
  | true =>
    rw [hpin, if_pos rfl] at htuned
    rw [htuned, if_pos rfl]
    simp only [true_and]
  | false =>
    rw [hpin, if_neg Bool.false_ne_true, withDefaults_band] at htuned
    rw [htuned.1, if_neg Bool.false_ne_true]
    simp only [Bool.false_eq_true, false_and, or_false]
    by_cases hname : o.tunName = ""
    · simp only [hname, if_true, ne_eq, not_true_eq_false, false_or]
    · rw [if_neg hname] at htuned ⊢
      exact iff_of_true (Phy.lowestIn_pickChannel hband htuned.2) (.inl hname)

/-! ### A radio with three bands -/

/-- The machine of `cabledFacts` with a radio that also lists a 6 GHz channel,
and its station on the given channel and frequency. -/
def triBandFacts (channel mhz : Int) : Facts :=
  { cabledFacts with
    wireless :=
      [ { name := "wlan0", phy := "phy0", type := "managed", ssid := "home", channel := channel
          freqMHz := mhz, manager := .networkManager, associated := true
          linkKnown := true } ]
    phys :=
      [ { name := "phy0", modes := ["managed", "AP"]
          combinations :=
            [{ limits := [⟨1, ["managed"]⟩, ⟨1, ["AP"]⟩], total := 2, channels := 1 }]
          frequencies :=
            [ { mhz := 2412, channel := 1 }, { mhz := 2432, channel := 5 },
              { mhz := 5180, channel := 36 }, { mhz := 5975, channel := 5 } ] } ] }

/-- The options that ask for 2.4 GHz. -/
def lowerBandOptions : Options := { defaultOptions with hotspotBand := .band2GHz }

/-- The plan for that machine in 2.4 GHz. -/
def triBandPlan (channel mhz : Int) : Plan :=
  match planNetwork (triBandFacts channel mhz) [.v4 0xCB007107#32] lowerBandOptions with
  | .ok p => p
  | .error _ => {}

/-- The station is on 2432 MHz, and the access point goes beside it. -/
theorem triBand_in_band :
    (triBandPlan 5 2432).channelPinned = true ∧ (triBandPlan 5 2432).channel = 5 ∧
      ∀ c ∈ pickRadio (triBandFacts 5 2432) cable.dev (withDefaults lowerBandOptions),
        (triBandPlan 5 2432).InBand c .band2GHz := by
  have hplan : planNetwork (triBandFacts 5 2432) [.v4 0xCB007107#32] lowerBandOptions =
      .ok (triBandPlan 5 2432) := rfl
  obtain ⟨route, c, hroute, hc, -, hiff⟩ := planned_band_iff hplan (by decide)
  have hcable : cable = route := Except.ok.inj
    ((rfl : chooseUplink (triBandFacts 5 2432) (withDefaults lowerBandOptions) =
      .ok cable).symm.trans hroute)
  subst hcable
  have hkeeps : ∀ c ∈ pickRadio (triBandFacts 5 2432) cable.dev (withDefaults lowerBandOptions),
      c.KeepsBand cable.dev lowerBandOptions := by decide
  refine ⟨by decide, by decide, fun d hd => ?_⟩
  obtain rfl : c = d := Option.some.inj (hc.symm.trans hd)
  exact hiff.mpr (hkeeps c hc)

/-- The station is on channel 5 of 6 GHz.  The planner takes it for channel 5 of
2.4 GHz and puts the access point there for a user who asked for 2.4 GHz. -/
theorem triBand_out_of_band :
    planNetwork (triBandFacts 5 5975) [.v4 0xCB007107#32] lowerBandOptions =
        .ok (triBandPlan 5 5975) ∧
      (triBandPlan 5 5975).channelPinned = true ∧ (triBandPlan 5 5975).channel = 5 ∧
      (pickRadio (triBandFacts 5 5975) cable.dev (withDefaults lowerBandOptions)).isSome = true ∧
      ∀ c ∈ pickRadio (triBandFacts 5 5975) cable.dev (withDefaults lowerBandOptions),
        ¬(triBandPlan 5 5975).InBand c .band2GHz :=
  ⟨rfl, by decide, by decide, by decide, by decide⟩

end Caspian.Netcfg
