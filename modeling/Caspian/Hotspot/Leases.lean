import Caspian.Netcfg.IwDev
import Caspian.Verified.LineScan
import Caspian.Verified.Utf8

/-!
# The devices on the hotspot

dnsmasq writes a line for every lease it has granted.  `ParseLeases` reads the
file a line at a time and counts the lines it cannot read rather than failing,
so that a damaged line costs no other line its place in the list.  A line that
does not fit the scanner's buffer ends the scan with an error all the same, and
the supervisor answers an error with no devices: `parseLeases_iff` says that the
list is right exactly for the files whose lines are all shorter than that.

The text of a line is what its bytes decode to; a byte that is part of no
character shows as the replacement character.
-/

namespace Caspian.Hotspot

open Verified Netip
open Netcfg (atoi)

/-- A time: seconds since the first of January of the year one, and nanoseconds. -/
structure Instant where
  sec : Int64
  nsec : Nat := 0
  deriving DecidableEq

/-- The epoch, in seconds since the year one. -/
def unixToInternal : Int := 62135596800

/-- `time.Unix` at a whole second.  The sum wraps. -/
def unix (secs : Int) : Int64 := Int64.ofInt (secs + unixToInternal)

/-- `Lease`; no expiry is a lease that does not run out. -/
structure Lease where
  expiry : Option Int64
  mac : String
  ip : Addr
  hostname : String
  clientID : String
  deriving DecidableEq

/-- `Lease.Expired`. -/
def Lease.expired (l : Lease) (now : Instant) : Bool :=
  match l.expiry with
  | none => false
  | some at' => decide (at' < now.sec) || (decide (at' = now.sec) && decide (0 < now.nsec))

/-- A name, or nothing for the star that stands for none. -/
def unstarred (field : List Char) : String := if field = ['*'] then "" else String.ofList field

/-- `parseLeaseLine`. -/
def parseLeaseLine (line : List Char) : Option Lease :=
  match Text.fields line with
  | [expiry, mac, address, hostname, clientID] => do
      let secs ← atoi expiry
      guard (0 ≤ secs)
      let addr ← parseAddr (String.ofList address)
      return { expiry := if secs = 0 then none else some (unix secs)
               mac := Text.toLower (String.ofList mac)
               ip := addr
               hostname := unstarred hostname
               clientID := unstarred clientID }
  | _ => none

/-- The text of a line; the scanner has dropped the carriage return. -/
def leaseText (raw : List UInt8) : List Char :=
  Text.trimChars (Utf8.lossy (if raw.getLast? = some 13 then raw.dropLast else raw))

/-- What has been read of a file. -/
structure LeaseFile where
  leases : List Lease := []
  malformed : Nat := 0
  deriving DecidableEq

/-- One line of the file. -/
def LeaseFile.line (f : LeaseFile) (raw : List UInt8) : LeaseFile :=
  let line := leaseText raw
  if line = [] then f
  else if "duid ".toList <+: line then f
  else
    match parseLeaseLine line with
    | none => { f with malformed := f.malformed + 1 }
    | some l => { f with leases := f.leases ++ [l] }

/-- The bytes the scanner's buffer holds. -/
def maxTokenSize : Nat := 64 * 1024

/-- `ParseLeases`. -/
def parseLeases (content : List UInt8) : LeaseFile × Option String :=
  let scanned := scanLines 10 maxTokenSize [] content
  (scanned.1.foldl LeaseFile.line {},
    if scanned.2 then
      some "hotspot: could not read the lease file: bufio.Scanner: token too long"
    else none)

/-- `ActiveLeases`. -/
def activeLeases (leases : List Lease) (now : Instant) : List Lease :=
  leases.filter fun l => !l.expired now

/-- `devices`: the devices, and the lines that could not be read. -/
def devices (file : Option (List UInt8)) (now : Instant) : List Lease × Nat :=
  match file with
  | none => ([], 0)
  | some content =>
    match parseLeases content with
    | (f, some _) => ([], f.malformed)
    | (f, none) => (activeLeases f.leases now, f.malformed)

/-! ## What the file says -/

/-- A line that should be a lease: not blank, and not the header. -/
def isEntry (raw : List UInt8) : Bool :=
  decide (leaseText raw ≠ []) && !decide ("duid ".toList <+: leaseText raw)

/-- The lines that should be leases. -/
def entries (content : List UInt8) : List (List UInt8) := (content.splitOn 10).filter isEntry

/-- The leases of the well-formed lines, in order. -/
def leasesIn (content : List UInt8) : List Lease :=
  (entries content).filterMap fun raw => parseLeaseLine (leaseText raw)

/-- The number of the other lines. -/
def unreadableIn (content : List UInt8) : Nat :=
  (entries content).countP fun raw => (parseLeaseLine (leaseText raw)).isNone

theorem LeaseFile.line_eq (f : LeaseFile) (raw : List UInt8) :
    f.line raw =
      if isEntry raw then
        match parseLeaseLine (leaseText raw) with
        | none => { f with malformed := f.malformed + 1 }
        | some l => { f with leases := f.leases ++ [l] }
      else f := by
  unfold LeaseFile.line isEntry
  dsimp only
  by_cases hblank : leaseText raw = []
  · rw [if_pos hblank, decide_eq_false (not_not_intro hblank)]
    rfl
  by_cases hduid : "duid ".toList <+: leaseText raw
  · rw [if_neg hblank, if_pos hduid, decide_eq_true hduid, Bool.not_true, Bool.and_false]
    rfl
  · rw [if_neg hblank, if_neg hduid, decide_eq_true hblank, decide_eq_false hduid]
    rfl

theorem foldl_line (raws : List (List UInt8)) (f : LeaseFile) :
    raws.foldl LeaseFile.line f =
      { leases := f.leases ++
          (raws.filter isEntry).filterMap fun raw => parseLeaseLine (leaseText raw)
        malformed := f.malformed +
          (raws.filter isEntry).countP fun raw => (parseLeaseLine (leaseText raw)).isNone } := by
  induction raws generalizing f with
  | nil => simp
  | cons raw raws ih =>
    rw [List.foldl_cons, ih, LeaseFile.line_eq, List.filter_cons]
    by_cases hentry : isEntry raw = true
    · rw [if_pos hentry, if_pos hentry]
      cases hread : parseLeaseLine (leaseText raw) with
      | none => simp [hread, Nat.add_assoc, Nat.add_comm 1]
      | some l => simp [hread]
    · rw [if_neg hentry, if_neg hentry]

/-- Empty lines are no entries. -/
theorem filter_isEntry_of_nonempty {xs ys : List (List UInt8)}
    (h : xs.filter (fun l => !l.isEmpty) = ys.filter (fun l => !l.isEmpty)) :
    xs.filter isEntry = ys.filter isEntry := by
  have hnonempty : ∀ zs : List (List UInt8),
      zs.filter isEntry = (zs.filter (fun l => !l.isEmpty)).filter isEntry := by
    intro zs
    rw [List.filter_filter]
    refine List.filter_congr fun raw _ => ?_
    cases raw with
    | nil => rfl
    | cons b raw => simp
  rw [hnonempty, h, ← hnonempty]

/-- The scan reaches the end of a file exactly if each line is shorter than the
buffer. -/
theorem scanLines_all_iff (content : List UInt8) :
    (scanLines 10 maxTokenSize [] content).2 = false ↔
      ∀ line ∈ content.splitOn 10, line.length < maxTokenSize := by
  have h := @scanLines_short_iff UInt8 _ 10 maxTokenSize [] (by decide) content
  rwa [List.reverse_nil, prepend_nil] at h

theorem parseLeases_of_short {content : List UInt8}
    (hshort : (scanLines 10 maxTokenSize [] content).2 = false) :
    parseLeases content = (⟨leasesIn content, unreadableIn content⟩, none) := by
  have hread := scanLines_lines hshort
  rw [List.reverse_nil, prepend_nil] at hread
  unfold parseLeases
  dsimp only
  rw [foldl_line, hshort, filter_isEntry_of_nonempty hread]
  simp [leasesIn, unreadableIn, entries]

/-- A line that does not fit hides every device. -/
theorem devices_of_long {content : List UInt8}
    (hlong : (scanLines 10 maxTokenSize [] content).2 ≠ false) (now : Instant) :
    (parseLeases content).2.isSome = true ∧ (devices (some content) now).1 = [] := by
  have htrue : (scanLines 10 maxTokenSize [] content).2 = true := by simpa using hlong
  unfold devices parseLeases
  simp [htrue]

/-- A file is read as it stands, and its live leases are the devices, exactly if
each of its lines is shorter than the scanner's buffer. -/
theorem parseLeases_iff (content : List UInt8) (now : Instant) :
    (parseLeases content = (⟨leasesIn content, unreadableIn content⟩, none) ∧
        devices (some content) now
          = (activeLeases (leasesIn content) now, unreadableIn content)) ↔
      ∀ line ∈ content.splitOn 10, line.length < maxTokenSize := by
  rw [← scanLines_all_iff]
  constructor
  · rintro ⟨hparse, -⟩
    by_contra hlong
    have herr := (devices_of_long hlong now).1
    rw [hparse] at herr
    cases herr
  · intro hshort
    have hparse := parseLeases_of_short hshort
    refine ⟨hparse, ?_⟩
    simp only [devices, hparse]

def phoneLine : List UInt8 :=
  Utf8.encode "1700000000 aa:bb:cc:dd:ee:ff 10.42.0.10 phone *".toList

/-- A lease, and after it a line of as many bytes as the buffer holds. -/
def spoiledFile : List UInt8 := phoneLine ++ 10 :: List.replicate maxTokenSize 120

theorem long_line_hides_lease :
    (∃ l ∈ leasesIn spoiledFile, l.hostname = "phone" ∧ l.expired ⟨unix 1600000000, 0⟩ = false) ∧
      (parseLeases spoiledFile).2.isSome = true ∧
      (devices (some spoiledFile) ⟨unix 1600000000, 0⟩).1 = [] := by
  have hlines : spoiledFile.splitOn 10 = [phoneLine, List.replicate maxTokenSize 120] := by
    have hlong : (List.replicate maxTokenSize (120 : UInt8)).splitOn 10
        = [List.replicate maxTokenSize 120] := List.splitOn_eq_singleton (by simp)
    rw [← hlong]
    exact List.splitOnP_append_cons_of_forall_mem (by decide) 10 rfl _
  constructor
  · have hentry : phoneLine ∈ entries spoiledFile :=
      List.mem_filter.mpr ⟨hlines ▸ List.mem_cons_self, by decide⟩
    exact ⟨⟨some (unix 1700000000), "aa:bb:cc:dd:ee:ff", .v4 0x0a2a000a, "phone", ""⟩,
      List.mem_filterMap.mpr ⟨_, hentry, by decide⟩, by decide⟩
  · refine devices_of_long (fun h => ?_) _
    have hfits := (scanLines_all_iff spoiledFile).mp h (List.replicate maxTokenSize 120)
      (by rw [hlines]; simp)
    rw [List.length_replicate] at hfits
    exact absurd hfits (Nat.lt_irrefl _)

end Caspian.Hotspot
