import Caspian.Link.Nulls
import Caspian.Netip.Parse

/-!
# Pinning the server's name

The engine dials the addresses the network plan has routes for.  `pinServerName`
writes them down as the static addresses of the server's name, and
`forceIPDial` has the outbound look the name up there instead of asking the
system.

Of the outbound, one field is set (`Forced`).  What stands in the place of the
objects around it is kept only if it is an object.
-/

namespace Caspian.Xcfg

open Verified Verified.Json Netip
open Link (maxNestingDepth)

inductive QueryStrategy where
  | useIP
  | useIPv4
  | useIPv6
  deriving DecidableEq

inductive ConfigError where
  | pinnedServerAddress
  | pinnedServerFamily
  | serialise
  deriving DecidableEq

/-- The `Options` that are read here. -/
structure Options where
  /-- The address of the link. -/
  link : Option String
  pinnedServer : List Addr
  strategy : QueryStrategy

/-- The engine's resolver answers with an address of this family. -/
def QueryStrategy.admits (q : QueryStrategy) (a : Addr) : Bool :=
  a.is4 && q ≠ .useIPv6 || a.is6 && q ≠ .useIPv4

/-! ## The name -/

/-- `strings.TrimSuffix` of a dot. -/
def trimDot (s : String) : String :=
  if s.toList.getLast? = some '.' then String.ofList s.toList.dropLast else s

/-- `strings.Trim` of brackets. -/
def trimBrackets (s : String) : String :=
  let strip := fun cs : List Char => cs.dropWhile fun c => c = '[' || c = ']'
  String.ofList (strip (strip s.toList).reverse).reverse

def isLiteral (host : String) : Bool := (parseAddr (trimBrackets host)).isSome

-- How the Unicode tables write a letter small.
variable (lower : Char → Char)

def toLower (s : String) : String := String.ofList (s.toList.map lower)

/-- `serverNameOf`. -/
def serverNameOf (o : Options) : String :=
  match o.link with
  | none => ""
  | some address =>
    if isLiteral (trimDot address) || trimDot address = "" then ""
    else toLower lower (trimDot address)

/-! ## The outbound -/

/-- The object a text starts with, decoded into a map. -/
def decodeObject (raw : List Char) : Option (List (List Char × Json)) :=
  match value (2 * raw.length + 2) raw with
  | some (obj fields, _) =>
    if (obj fields).within maxNestingDepth then some (Members.mapOf (asMapFields fields)) else none
  | _ => none

/-- A value taken for a map; if it is none, a new one. -/
def mapOrNew : Option Json → List (List Char × Json)
  | some (obj fields) => fields
  | _ => []

def streamSettings : List Char := "streamSettings".toList
def sockopt : List Char := "sockopt".toList
def domainStrategy : List Char := "domainStrategy".toList
def forceIP : Json := str "ForceIP".toList

/-- The members of the outbound once the field is set. -/
def force (ob : List (List Char × Json)) : List (List Char × Json) :=
  let stream := mapOrNew (ob.lookup streamSettings)
  let options := mapOrNew (stream.lookup sockopt)
  Members.assign streamSettings
    (obj (Members.assign sockopt (obj (Members.assign domainStrategy forceIP options)) stream)) ob

/-- `forceIPDial`. -/
def forceIPDial (proxy : List Char) : Except ConfigError (List Char) :=
  match decodeObject proxy with
  | none => .error .serialise
  | some ob => .ok (render (obj (force ob)))

/-! ## The addresses -/

/-- The loop over the pinned addresses: what is written, and whether the engine can
use one. -/
def pinAddrs (q : QueryStrategy) :
    List Addr → List Addr → List String → Bool → Except ConfigError (List String × Bool)
  | [], _, addrs, usable => .ok (addrs, usable)
  | a :: rest, seen, addrs, usable =>
    if a.isValid = false then .error .pinnedServerAddress
    else if a.unmap ∈ seen then pinAddrs q rest seen addrs usable
    else pinAddrs q rest (a.unmap :: seen) (addrs ++ [a.unmap.text]) (usable || q.admits a.unmap)

/-- `pinServerName`: the outbound and the static hosts. -/
def pinServerName (o : Options) (proxy : List Char) :
    Except ConfigError (List Char × List (String × List String)) :=
  if serverNameOf lower o = "" ∨ o.pinnedServer = [] then .ok (proxy, [])
  else
    match pinAddrs o.strategy o.pinnedServer [] [] false with
    | .error e => .error e
    | .ok (_, false) => .error .pinnedServerFamily
    | .ok (addrs, true) =>
      match forceIPDial proxy with
      | .error e => .error e
      | .ok forced => .ok (forced, [("full:" ++ serverNameOf lower o, addrs)])

variable {q : QueryStrategy} {pinned : List Addr}

theorem pinAddrs_invalid (h : ∃ a ∈ pinned, a.isValid = false) (seen : List Addr)
    (addrs : List String) (usable : Bool) :
    pinAddrs q pinned seen addrs usable = .error .pinnedServerAddress := by
  induction pinned generalizing seen addrs usable with
  | nil =>
    obtain ⟨a, ha, _⟩ := h
    cases ha
  | cons a rest ih =>
    rw [pinAddrs]
    split_ifs with hvalid hseen
    · rfl
    all_goals
      obtain ⟨b, hb, hinvalid⟩ := h
      rcases List.mem_cons.mp hb with rfl | hb
      · exact absurd hinvalid hvalid
      · exact ih ⟨b, hb, hinvalid⟩ _ _ _

/-- What the loop adds are the addresses not seen before, each once. -/
theorem pinAddrs_valid (h : ∀ a ∈ pinned, a.isValid = true) (seen : List Addr)
    (addrs : List String) (usable : Bool) :
    pinAddrs q pinned seen addrs usable =
      let news := ((pinned.map Addr.unmap).filter (· ∉ seen)).eraseDups
      .ok (addrs ++ news.map Addr.text, usable || news.any q.admits) := by
  induction pinned generalizing seen addrs usable with
  | nil => simp [pinAddrs]
  | cons a rest ih =>
    obtain ⟨ha, hrest⟩ := List.forall_mem_cons.mp h
    rw [pinAddrs, if_neg (by simp [ha])]
    split_ifs with hseen
    · rw [ih hrest]
      simp [hseen]
    · rw [ih hrest]
      have hnews : (rest.map Addr.unmap).filter (· ∉ a.unmap :: seen) =
          ((rest.map Addr.unmap).filter (· ∉ seen)).filter (fun b => !b == a.unmap) := by
        rw [List.filter_filter]
        refine List.filter_congr fun b _ => ?_
        by_cases hb : b = a.unmap <;> simp [hb]
      simp only [List.map_cons, List.filter_cons, hseen, not_false_eq_true, decide_true, if_true,
        List.eraseDups_cons, ← hnews, List.append_assoc, List.singleton_append, List.any_cons,
        Bool.or_assoc]

/-! ## One field -/

/-- The second value is the first with the strategy set: every other member of the
outbound, of its stream settings and of their socket options is the one it was. -/
structure Forced (x y : Json) : Prop where
  set : y.down [.member streamSettings, .member sockopt, .member domainStrategy] = some forceIP
  outbound : ∀ name, name ≠ streamSettings → y.down [.member name] = x.down [.member name]
  stream : ∀ name, name ≠ sockopt →
    y.down [.member streamSettings, .member name] = x.down [.member streamSettings, .member name]
  options : ∀ name, name ≠ domainStrategy →
    y.down [.member streamSettings, .member sockopt, .member name] =
      x.down [.member streamSettings, .member sockopt, .member name]

theorem child_member (name : List Char) (fields : List (List Char × Json)) :
    child (.member name) (obj fields) = fields.lookup name := rfl

theorem lookup_mapOrNew (x : Option Json) (name : List Char) :
    (mapOrNew x).lookup name = x.bind (child (.member name)) := by
  cases x with
  | none => rfl
  | some x => cases x <;> rfl

theorem forced_force (ob : List (List Char × Json)) : Forced (obj ob) (obj (force ob)) := by
  constructor
  · simp [down, child_member, force, Members.lookup_assign]
  · intro name h
    simp [down, child_member, force, Members.lookup_assign, h]
  · intro name h
    simp [down, child_member, force, Members.lookup_assign, h, lookup_mapOrNew]
  · intro name h
    simp [down, child_member, force, Members.lookup_assign, h, lookup_mapOrNew, Option.bind_assoc]

/-! ## What is written is a document -/

variable {ob : List (List Char × Json)}

theorem wellFormed_decodeObject {raw : List Char} (h : decodeObject raw = some ob) :
    (obj ob).wellFormed = true := by
  unfold decodeObject at h
  split at h
  next fields rest hvalue =>
    split_ifs at h
    cases h
    have hmap := wellFormed_asMap ((wellFormed_of_value _).1 _ _ _ hvalue)
    rwa [asMap] at hmap
  next => cases h

theorem wellFormed_assign {k : List Char} {x : Json} (hob : (obj ob).wellFormed = true)
    (hx : x.wellFormed = true) : (obj (Members.assign k x ob)).wellFormed = true := by
  rw [wellFormed, wellFormedFields_iff] at hob ⊢
  intro f hf
  rcases Members.mem_of_mem_assign hf with rfl | hf
  · exact hx
  · exact hob f hf

theorem wellFormed_mapOrNew (hob : (obj ob).wellFormed = true) (k : List Char) :
    (obj (mapOrNew (ob.lookup k))).wellFormed = true := by
  rw [wellFormed, wellFormedFields_iff] at hob
  cases hfound : ob.lookup k with
  | none => rfl
  | some x =>
    obtain ⟨before, later, rfl, _⟩ := List.lookup_eq_some_iff.mp hfound
    have hx := hob (k, x) (by simp)
    cases x with
    | obj fields => exact hx
    | _ => rfl

theorem parse_force {raw : List Char} (h : decodeObject raw = some ob) :
    parse (render (obj (force ob))) = some (obj (force ob)) := by
  have hob := wellFormed_decodeObject h
  have hstream := wellFormed_mapOrNew hob streamSettings
  have hoptions := wellFormed_mapOrNew hstream sockopt
  exact parse_render (wellFormed_assign hob (wellFormed_assign hstream
    (wellFormed_assign hoptions rfl)))

/-! ## The whole function -/

variable {lower} {o : Options} {proxy : List Char}

theorem pinServerName_domain (hname : serverNameOf lower o ≠ "") (hpinned : o.pinnedServer ≠ []) :
    pinServerName lower o proxy =
      if ∃ a ∈ o.pinnedServer, a.isValid = false then .error .pinnedServerAddress
      else if ∀ a ∈ o.pinnedServer, o.strategy.admits a.unmap = false then
        .error .pinnedServerFamily
      else (forceIPDial proxy).map fun forced => (forced, [("full:" ++ serverNameOf lower o,
        (o.pinnedServer.map Addr.unmap).eraseDups.map Addr.text)]) := by
  rw [pinServerName, if_neg (by simp [hname, hpinned])]
  split_ifs with hinvalid hfamily
  · rw [pinAddrs_invalid hinvalid]
  all_goals
    have hvalid : ∀ a ∈ o.pinnedServer, a.isValid = true := by simpa using hinvalid
    rw [pinAddrs_valid hvalid]
    simp only [List.not_mem_nil, not_false_eq_true, decide_true, List.filter_true, List.nil_append,
      Bool.false_or]
  · have hnone : (o.pinnedServer.map Addr.unmap).eraseDups.any o.strategy.admits = false := by
      simpa [List.mem_eraseDups] using hfamily
    rw [hnone]
  · have hsome : (o.pinnedServer.map Addr.unmap).eraseDups.any o.strategy.admits = true := by
      simpa [List.mem_eraseDups] using hfamily
    rw [hsome]
    cases forceIPDial proxy <;> rfl

/-- **Pinning the server's name sets one field.**  For a link to an IP literal nothing
is changed.  For a link to a name, and some pinned addresses, it is refused if and
only if an address is not valid, none is of a family the engine asks for, or the
outbound is no object that Go's decoder takes.  Otherwise the one static host is the
name in small letters, without its dot, with the addresses in order, unmapped and
each once, and the outbound is the one given with the one field set. -/
theorem pinServerName_frame (lower : Char → Char) (o : Options) (proxy : List Char)
    {address : String} (hlink : o.link = some address) :
    (isLiteral (trimDot address) = true → pinServerName lower o proxy = .ok (proxy, [])) ∧
      (isLiteral (trimDot address) = false → trimDot address ≠ "" → o.pinnedServer ≠ [] →
        ((∃ e, pinServerName lower o proxy = .error e) ↔
          (∃ a ∈ o.pinnedServer, a.isValid = false) ∨
            (∀ a ∈ o.pinnedServer, o.strategy.admits a.unmap = false) ∨
            decodeObject proxy = none) ∧
        ∀ out hosts, pinServerName lower o proxy = .ok (out, hosts) →
          hosts = [("full:" ++ toLower lower (trimDot address),
            (o.pinnedServer.map Addr.unmap).eraseDups.map Addr.text)] ∧
          ∃ before after, decodeObject proxy = some before ∧ parse out = some (obj after) ∧
            Forced (obj before) (obj after)) := by
  constructor
  · intro hliteral
    simp [pinServerName, serverNameOf, hlink, hliteral]
  · intro hliteral hhost hpinned
    have hserver : serverNameOf lower o = toLower lower (trimDot address) := by
      simp [serverNameOf, hlink, hliteral, hhost]
    have hname : serverNameOf lower o ≠ "" := by
      rw [hserver]
      intro h
      have hempty := congrArg String.toList h
      simp [toLower] at hempty
      exact hhost hempty
    rw [pinServerName_domain hname hpinned, hserver]
    unfold forceIPDial
    split_ifs with hinvalid hfamily
    · simp [hinvalid]
    · simpa using .inr (.inl hfamily)
    · cases hdecode : decodeObject proxy with
      | none => simp [Except.map]
      | some ob =>
        simp only [Except.map, hinvalid, hfamily, reduceCtorEq, exists_false, or_self, true_and]
        rintro out hosts h
        cases h
        exact ⟨rfl, ob, force ob, rfl, parse_force hdecode, forced_force ob⟩

/-- A name written large, and one address. -/
def named : Options := ⟨some "Example.org.", [.v4 0x05060708#32], .useIP⟩

def tagged : List Char := "\x7b\"tag\":\"proxy\"\x7d".toList

theorem named_pinned : ∃ out hosts, pinServerName Char.toLower named tagged = .ok (out, hosts) ∧
    hosts = [("full:example.org", ["5.6.7.8"])] := by
  have hok : (pinServerName Char.toLower named tagged).toOption.isSome = true := by decide +kernel
  obtain ⟨_, hframe⟩ := pinServerName_frame Char.toLower named tagged rfl
  obtain ⟨_, hhosts⟩ := hframe (by decide +kernel) (by decide +kernel) (by decide +kernel)
  cases hpin : pinServerName Char.toLower named tagged with
  | error e =>
    rw [hpin] at hok
    cases hok
  | ok r => exact ⟨r.1, r.2, rfl, (hhosts r.1 r.2 hpin).1⟩

/-- Stream settings that are no object. -/
def wordy : List Char := "\x7b\"streamSettings\":\"raw\"\x7d".toList

/-- They are there, and are replaced. -/
theorem streamSettings_replaced :
    ((parse wordy).bind (down [.member streamSettings])).isSome = true ∧
      ((pinServerName Char.toLower named wordy).toOption.map fun r => String.ofList r.1) = some
        "\x7b\"streamSettings\":\x7b\"sockopt\":\x7b\"domainStrategy\":\"ForceIP\"\x7d\x7d\x7d" := by
  decide +kernel

end Caspian.Xcfg
