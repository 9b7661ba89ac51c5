import Caspian.Netip.RoundTrip
import Caspian.Privsvc.Lifecycle

/-!
# The fingerprint of a request

A service that is running compares the fingerprint of what it runs with that of
the request, and goes on as it is when they are the same.  Each field is hashed
behind its length, so that what is hashed says where every field ends; the
fields together are the whole request.
-/

namespace Caspian.Privsvc

open Verified Verified.Action Netip

/-! ## What is hashed -/

/-- Lengths that fit in eight bytes are told apart. -/
theorem lengthBytes_inj {n m : Nat} (hn : n < 2 ^ 64) (hm : m < 2 ^ 64)
    (h : lengthBytes n = lengthBytes m) : n = m := by
  simp only [lengthBytes, List.map_cons, List.map_nil, List.cons.injEq, and_true,
    ← UInt8.toNat_inj, UInt8.toNat_ofNat'] at h
  omega

/-- The fields can be read back from the stream, one after the other. -/
theorem fields_inj {xs ys : List (List UInt8)} (hlen : xs.length = ys.length)
    (hxs : ∀ x ∈ xs, x.length < 2 ^ 64) (hys : ∀ y ∈ ys, y.length < 2 ^ 64)
    (h : xs.flatMap fingerprintField = ys.flatMap fingerprintField) : xs = ys := by
  induction xs generalizing ys with
  | nil => exact (List.length_eq_zero_iff.mp hlen.symm).symm
  | cons x xs ih =>
    cases ys with
    | nil => cases hlen
    | cons y ys =>
      rw [List.forall_mem_cons] at hxs hys
      simp only [List.flatMap_cons, fingerprintField, List.append_assoc] at h
      obtain ⟨hsize, hfield⟩ := List.append_inj h rfl
      obtain ⟨rfl, hrest⟩ := List.append_inj hfield (lengthBytes_inj hxs.1 hys.1 hsize)
      rw [ih (Nat.succ.inj hlen) hxs.2 hys.2 hrest]

theorem utf8_inj {s t : String} (h : utf8 s = utf8 t) : s = t := by
  refine String.toByteArray_inj.mp ?_
  exact ByteArray.ext (Array.toList_inj.mp h)

theorem itoaInt_inj {n m : Int} (h : itoaInt n = itoaInt m) : n = m := by
  have hdigits : ∀ k : Nat, readDigits 10 (itoa k).toList = k := fun k => by
    rw [itoa_toList]
    exact readDigits_toDigits (by decide) (by decide) k
  have hsign : ∀ k l : Nat, "-" ++ itoa k ≠ itoa l := by
    intro k l heq
    have hmem : '-' ∈ (itoa l).toList := by rw [← heq]; simp
    rw [itoa_toList] at hmem
    exact notMem_toDigits (by decide) (by decide) (by decide) l hmem
  have hnat : ∀ k l : Nat, itoa k = itoa l → k = l := fun k l heq => by
    rw [← hdigits k, heq, hdigits l]
  unfold itoaInt at h
  split at h
  · split at h
    · have heq := hnat _ _ (String.toList_inj.mp (List.append_cancel_left
        (by simpa using congrArg String.toList h : "-".toList ++ _ = "-".toList ++ _)))
      omega
    · exact absurd h (hsign _ _)
  · split at h
    · exact absurd h.symm (hsign _ _)
    · have heq := hnat _ _ h
      omega

/-- The fields hold the whole request. -/
theorem fingerprintFields_inj {a b : StartRequest} (h : fingerprintFields a = fingerprintFields b) :
    a = b := by
  have hflag : ∀ {x y : Bool} {t : String}, t ≠ "" →
      (if x = true then t else "") = (if y = true then t else "") → x = y := by
    intro x y t ht heq
    cases x <;> cases y <;> simp_all
  simp only [fingerprintFields, List.map_cons, List.map_nil, List.cons.injEq, and_true] at h
  obtain ⟨hconfig, hsni, htcp, htls, hssid, hpass, hiface, hch, hband, hcountry, hsubnet, hinternet,
    hdns, hdown, hipv6, hlevel⟩ := h
  obtain ⟨_, _, _, _, ⟨_, _, _, _, _, _, _⟩, ⟨_, _, _, _⟩, _⟩ := a
  obtain ⟨_, _, _, _, ⟨_, _, _, _, _, _, _⟩, ⟨_, _, _, _⟩, _⟩ := b
  obtain rfl := hconfig
  obtain rfl := utf8_inj hsni
  obtain rfl := hflag (by decide) (utf8_inj htcp)
  obtain rfl := hflag (by decide) (utf8_inj htls)
  obtain rfl := itoaInt_inj (utf8_inj hch)
  simp only [StartRequest.mk.injEq, HotspotSpec.mk.injEq, NetworkSpec.mk.injEq, true_and]
  exact ⟨⟨utf8_inj hssid, utf8_inj hpass, utf8_inj hiface, utf8_inj hband, utf8_inj hcountry,
    utf8_inj hsubnet⟩, ⟨utf8_inj hinternet, utf8_inj hdns, utf8_inj hdown, utf8_inj hipv6⟩,
    utf8_inj hlevel⟩

/-- Every field has a length a machine can count. -/
def StartRequest.Countable (req : StartRequest) : Prop :=
  ∀ field ∈ fingerprintFields req, field.length < 2 ^ 64

theorem hexEncode_inj {xs ys : List UInt8} (h : hexEncode xs = hexEncode ys) : xs = ys := by
  have hlist := String.ofList_inj.mp h
  clear h
  induction xs generalizing ys with
  | nil =>
    cases ys with
    | nil => rfl
    | cons y ys => cases hlist
  | cons x xs ih =>
    cases ys with
    | nil => cases hlist
    | cons y ys =>
      simp only [List.flatMap_cons, List.cons_append, List.nil_append, List.cons.injEq] at hlist
      obtain ⟨hhigh, hlow, hrest⟩ := hlist
      have hdigit : ∀ {k l : Nat}, k < 16 → l < 16 → k.digitChar = l.digitChar → k = l := by
        intro k l hk hl heq
        have hk' := hexDigit_digitChar hk
        rw [heq, hexDigit_digitChar hl] at hk'
        exact (Option.some.inj hk').symm
      have hx := x.toNat_lt
      have hy := y.toNat_lt
      have hhigh := hdigit (by omega) (by omega) hhigh
      have hlow := hdigit (by omega) (by omega) hlow
      rw [ih hrest, UInt8.toNat_inj.mp (show x.toNat = y.toNat by omega)]

/-! ## Start on a running service -/

namespace Host

variable {σ Λ Δ E : Type} (H : Host σ Λ Δ E) (c : Config)

/-- The hash is the same for two requests though what is hashed is not. -/
def Collides (a b : StartRequest) : Prop :=
  fingerprintStream a ≠ fingerprintStream b ∧
    H.mac (fingerprintStream a) = H.mac (fingerprintStream b)

/-- **What is hashed is a different stream for every request**, and so a running
service stops and applies any request other than the one it runs, unless the
hash collides. -/
theorem fingerprint_tells_apart {a b : StartRequest} (ha : a.Countable) (hb : b.Countable) :
    (fingerprintStream a = fingerprintStream b → a = b) ∧
    (a ≠ b → ¬H.Collides a b → ∀ s s',
      wrap (StartError.mk .platform) (H.call "platform" H.faultOf H.checkSupport) s =
        (.ok (), s') → s'.running = true → s'.fingerprint = H.requestFingerprint b →
      H.start c a s = (do
        wrap (StartError.mk .stop) H.stopLocked
        H.startFresh c a) s') := by
  have hstream : fingerprintStream a = fingerprintStream b → a = b :=
    fun h => fingerprintFields_inj (fields_inj rfl ha hb h)
  refine ⟨hstream, fun hne hno s s' hcheck hrunning happlied => ?_⟩
  have hdiffer : s'.fingerprint ≠ H.requestFingerprint a := by
    intro heq
    refine hno ⟨mt hstream hne, ?_⟩
    exact List.ofFn_injective (hexEncode_inj (heq.symm.trans happlied))
  refine (bind_ok hcheck).trans ?_
  show (if s'.running = false then H.startFresh c a
    else if s'.fingerprint = H.requestFingerprint a then
      wrap (StartError.mk .reassert) H.reassertLocked
    else do
      wrap (StartError.mk .stop) H.stopLocked
      H.startFresh c a) s' = _
  rw [if_neg (by simp [hrunning]), if_neg hdiffer]

end Host

/-- A request for another channel. -/
def otherChannel : StartRequest :=
  { upperBandRequest with hotspot := { upperBandRequest.hotspot with channel := 1 } }

theorem other_channel_told_apart :
    fingerprintStream otherChannel ≠ fingerprintStream upperBandRequest := by
  have hall := (workingHost Unit).fingerprint_tells_apart {} (a := otherChannel)
    (b := upperBandRequest) (by unfold StartRequest.Countable; decide)
    (by unfold StartRequest.Countable; decide)
  exact mt hall.1 (by decide)

end Caspian.Privsvc
