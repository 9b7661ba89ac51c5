import Caspian.Verified.Replace
import Caspian.Netip.Addr

/-!
# Diagnostic lines without the server's address

`redactedText` takes the addresses of the servers out of a line, one after the
other in the order of the list, and then lets the engine's `Redact` take out
what looks like a key.  Texts are lists of characters.

An address stands in a line between characters that no address has in it, so
the line is a sequence of words and the addresses are among them.  A server's
address is looked for as a text, not as a word.  Every word comes out as it
should exactly if the first server that occurs in it is the whole of it
(`Whole`): otherwise a piece of the word is left beside the marker.
-/

namespace Caspian.Engine

open Verified Verified.Replace

def markerPrefix : List Char := "[redacted ".toList

/-- `mask`. -/
def mask (v : List Char) : List Char :=
  markerPrefix ++ (Netip.itoa v.length).toList ++ " chars]".toList

/-! ## The expressions -/

/-- The class `\s`. -/
def isBlank (c : Char) : Bool := c ∈ ['\t', '\n', '\u000c', '\r', ' ']

/-- What follows the pattern, letter case aside. -/
def afterFold : List Char → List Char → Option (List Char)
  | [], cs => some cs
  | _ :: _, [] => none
  | p :: ps, c :: cs => if Text.foldRune c = Text.foldRune p then afterFold ps cs else none

/-- The value behind a colon, up to the end of the segment. -/
def afterColon (cs : List Char) : Option (List Char) :=
  match cs.dropWhile isBlank with
  | ':' :: rest =>
    if (rest.dropWhile isBlank).isEmpty then none else some (rest.dropWhile isBlank)
  | _ => none

def keys : List String :=
  ["privateKey", "publicKey", "password", "mldsa65Seed", "mldsa65Verify", "shortIds", "shortId",
    "id"]

/-- `shortIds` with an index. -/
def afterIndexed (cs : List Char) : Option (List Char) := do
  let digits ← afterFold "shortIds[".toList cs
  if (digits.head?.any Char.isDigit) = true then
    afterFold "]\"".toList (digits.dropWhile Char.isDigit)
  else none

/-- What `keyedTail` has before the colon. -/
def afterKey : List Char → Option (List Char)
  | '"' :: cs =>
    (keys.findSome? fun key => afterFold (key.toList ++ ['"']) cs) <|> afterIndexed cs
  | _ => none

/-- What `unkeyedTail` has before the colon. -/
def afterPhrase (cs : List Char) : Option (List Char) :=
  ["can not be the same value", "invalid UUID"].findSome? fun phrase => afterFold phrase.toList cs

/-- The first match: what stands before the value, and the value. -/
def findTail (lead : List Char → Option (List Char)) : List Char → Option (List Char × List Char)
  | [] => none
  | c :: cs =>
    match (lead (c :: cs)).bind afterColon with
    | some v => some ((c :: cs).take ((c :: cs).length - v.length), v)
    | none => (findTail lead cs).map fun p => (c :: p.1, p.2)

def replaceTail (lead : List Char → Option (List Char)) (segment : List Char) : List Char :=
  match findTail lead segment with
  | none => segment
  | some (before, v) => if markerPrefix <+: v then segment else before ++ mask v

def isHex (c : Char) : Bool :=
  c.isDigit || ('a' ≤ c && c ≤ 'f') || ('A' ≤ c && c ≤ 'F')

/-- The class `\w`. -/
def isWordChar (c : Char) : Bool := c.isAlphanum || c = '_'

/-- `uuidShape` matches here, the boundary before it apart. -/
def uuidAt (cs : List Char) : Bool :=
  (cs.take 36).length = 36 && !(cs.drop 36).head?.any isWordChar &&
    (cs.take 36).zipIdx.all fun p => if p.2 ∈ [8, 13, 18, 23] then p.1 = '-' else isHex p.1

/-- The matches of `uuidShape` masked; `inWord` says what the last character was. -/
def replaceUuids : Bool → Nat → List Char → List Char
  | _, _, [] => []
  | _, k + 1, c :: cs => replaceUuids (isWordChar c) k cs
  | inWord, 0, c :: cs =>
    if !inWord && uuidAt (c :: cs) then
      mask ((c :: cs).take 36) ++ replaceUuids (isWordChar c) 35 cs
    else c :: replaceUuids (isWordChar c) 0 cs

/-- The class of `base64URLShape`. -/
def isBase64URL (c : Char) : Bool := c.isAlphanum || c = '_' || c = '-'

def redactSegment (segment : List Char) : List Char :=
  let segment := replaceTail afterKey segment
  let segment := replaceTail afterPhrase segment
  let segment := replaceUuids false 0 segment
  mapWords isBase64URL (fun run => if 32 ≤ run.length then mask run else run) segment

/-- `Redact`. -/
def redact (msg : List Char) : List Char :=
  ['\n'].intercalate <| (Text.splitChars '\n' msg).map fun line =>
    " > ".toList.intercalate <| (splitFrom " > ".toList 0 line).map redactSegment

end Caspian.Engine

namespace Caspian.Privsvc

open Verified Verified.Replace Netip

/-! ## The two passes -/

def serverMarker : List Char := "[server]".toList

/-- The first pass of `redactedText`. -/
def withoutServers (text : List Char) (servers : List Addr) : List Char :=
  servers.foldl
    (fun text a => if a.isValid then replaceAll a.text.toList serverMarker text else text) text

/-- `redactedText`. -/
def redactedText (text : List Char) (servers : List Addr) : List Char :=
  Engine.redact (withoutServers text servers)

/-! ## What it is for -/

/-- The addresses that are looked for, as they are written. -/
def spellings (servers : List Addr) : List (List Char) :=
  (servers.filter Addr.isValid).map fun a => a.text.toList

/-- The line with the words that are a server's address marked. -/
def marked (inWord : Char → Bool) (servers : List Addr) (text : List Char) : List Char :=
  mapWords inWord (fun w => if w ∈ spellings servers then serverMarker else w) text

/-- Texts taken out of a line, one after the other. -/
def takenOut (as : List (List Char)) (text : List Char) : List Char :=
  as.foldl (fun text a => replaceAll a serverMarker text) text

/-- The first of the addresses that occurs in the word is the word. -/
def Whole : List (List Char) → List Char → Prop
  | [], _ => True
  | a :: rest, w => w = a ∨ (¬a <:+: w ∧ Whole rest w)

instance decidableWhole : (as : List (List Char)) → (w : List Char) → Decidable (Whole as w)
  | [], _ => isTrue trivial
  | a :: rest, w =>
    have := decidableWhole rest w
    inferInstanceAs (Decidable (w = a ∨ (¬a <:+: w ∧ Whole rest w)))

/-- The characters of an address, the brackets of the marker not among them. -/
structure Delimits (inWord : Char → Bool) (servers : List Addr) : Prop where
  spelled : ∀ a ∈ spellings servers, ∀ c ∈ a, inWord c = true
  opening : inWord '[' = false
  ending : inWord ']' = false

theorem withoutServers_eq (text : List Char) (servers : List Addr) :
    withoutServers text servers = takenOut (spellings servers) text := by
  rw [withoutServers, takenOut, spellings, List.foldl_map, List.foldl_filter]

variable {a : List Char}

/-- An address has a dot or a colon in it. -/
theorem not_isInfix_server {servers : List Addr} (h : a ∈ spellings servers) :
    ¬a <:+: "server".toList := by
  obtain ⟨addr, haddr, rfl⟩ := List.mem_map.mp h
  intro hin
  cases addr with
  | invalid => cases (List.mem_filter.mp haddr).2
  | v4 b => exact absurd (hin.subset (dot_mem_dotted b.toNat)) (by decide)
  | v6 b zone =>
    have hcolon : ':' ∈ (Addr.v6 b zone).text.toList := by
      simp only [Addr.text, String.toList_append, List.mem_append]
      exact .inl (colon_mem_v6Text _)
    exact absurd (hin.subset hcolon) (by decide)

theorem ne_nil_of_mem_spellings {servers : List Addr} (h : a ∈ spellings servers) : a ≠ [] := by
  rintro rfl
  exact not_isInfix_server h List.nil_infix

section Passes

variable {inWord : Char → Bool} {servers : List Addr}

/-- The marker with something beside it. -/
def Torn (s : List Char) : Prop := ∃ x y, s = x ++ serverMarker ++ y ∧ x ++ y ≠ []

theorem Delimits.marker_kept (h : Delimits inWord servers) (ha : a ∈ spellings servers)
    (x y : List Char) :
    replaceAll a serverMarker (x ++ serverMarker ++ y) =
      replaceAll a serverMarker x ++ serverMarker ++ replaceAll a serverMarker y := by
  have hne := ne_nil_of_mem_spellings ha
  have hall := h.spelled a ha
  have hsplit : ∀ x y : List Char,
      x ++ serverMarker ++ y = x ++ '[' :: ("server".toList ++ ']' :: y) := by
    intro x y
    rw [List.append_assoc]
    rfl
  rw [hsplit, hsplit, replaceAll_delimited hne hall h.opening,
    replaceAll_delimited hne hall h.ending, replaceAll_of_not_isInfix (not_isInfix_server ha)]

variable {as : List (List Char)}

/-- What is torn stays torn. -/
theorem Delimits.torn_takenOut (h : Delimits inWord servers)
    (has : ∀ a ∈ as, a ∈ spellings servers) :
    ∀ {s}, Torn s → Torn (takenOut as s) := by
  induction as with
  | nil => exact id
  | cons a as ih =>
    rintro s ⟨x, y, rfl, hmore⟩
    refine ih (fun b hb => has b (List.mem_cons_of_mem _ hb)) ⟨_, _,
      h.marker_kept (has a List.mem_cons_self) x y, fun hnil => hmore ?_⟩
    have hboth := List.append_eq_nil_iff.mp hnil
    have hkept : ∀ z, replaceAll a serverMarker z = [] → z = [] := fun z hz =>
      by_contra fun hne => replaceAll_ne_nil (by decide) hne hz
    rw [hkept x hboth.1, hkept y hboth.2, List.append_nil]

/-- The marker itself is left alone by the addresses that follow. -/
theorem Delimits.takenOut_marker (h : Delimits inWord servers)
    (has : ∀ a ∈ as, a ∈ spellings servers) : takenOut as serverMarker = serverMarker := by
  induction as with
  | nil => rfl
  | cons a as ih =>
    have hkept := h.marker_kept (has a List.mem_cons_self) [] []
    refine (congrArg (takenOut as) ?_).trans (ih fun b hb => has b (List.mem_cons_of_mem _ hb))
    simpa [replaceAll, replaceFrom] using hkept

/-- A word comes out as it should exactly if the first address in it is the
whole of it. -/
theorem Delimits.word_iff (h : Delimits inWord servers) {w : List Char}
    (hw : ∀ c ∈ w, inWord c = true) (has : ∀ a ∈ as, a ∈ spellings servers) :
    takenOut as w = (if w ∈ as then serverMarker else w) ↔ Whole as w := by
  induction as with
  | nil => exact ⟨fun _ => trivial, fun _ => rfl⟩
  | cons a as ih =>
    have hmem := has a List.mem_cons_self
    have hlater : ∀ b ∈ as, b ∈ spellings servers := fun b hb => has b (List.mem_cons_of_mem _ hb)
    have hne := ne_nil_of_mem_spellings hmem
    rw [takenOut, List.foldl_cons, ← takenOut]
    by_cases heq : w = a
    · subst heq
      have hone : replaceAll w serverMarker w = serverMarker := by
        obtain ⟨c, cs, rfl⟩ := List.exists_cons_of_ne_nil hne
        rw [replaceAll, replaceFrom, if_pos List.prefix_rfl, replaceFrom_drop]
        simp [replaceFrom]
      rw [hone, h.takenOut_marker hlater, if_pos List.mem_cons_self]
      exact ⟨fun _ => .inl rfl, fun _ => rfl⟩
    by_cases hin : a <:+: w
    · -- A piece of the word is left, and the marker is longer or not there.
      obtain ⟨x, y, hcut, hmore⟩ :=
        replaceAll_of_isInfix hne (show serverMarker ≠ [] by decide) hin
      obtain ⟨x', y', hout, hmore'⟩ :=
        h.torn_takenOut hlater ⟨x, y, hcut, hmore heq⟩
      refine ⟨fun hgood => absurd hgood ?_, fun hwhole => ?_⟩
      · rw [hout]
        split
        · intro hlen
          have hlen := congrArg List.length hlen
          have hpos := List.length_pos_of_ne_nil hmore'
          simp only [List.length_append] at hlen hpos
          omega
        · intro hsame
          have hbracket := hw '[' (hsame ▸ List.mem_append_left _
            (List.mem_append_right _ List.mem_cons_self))
          rw [h.opening] at hbracket
          cases hbracket
      · exact absurd hin (hwhole.resolve_left heq).1
    · rw [replaceAll_of_not_isInfix hin, Whole]
      have hsame : (w ∈ a :: as) = (w ∈ as) := by simp [heq]
      simp only [hsame, ih hlater, heq, hin, false_or, not_false_eq_true, true_and]

theorem Delimits.takenOut_mapWords (h : Delimits inWord servers) (text : List Char)
    (has : ∀ a ∈ as, a ∈ spellings servers) :
    ∀ f : List Char → List Char, takenOut as (mapWords inWord f text) =
      mapWords inWord (fun w => takenOut as (f w)) text := by
  induction as with
  | nil => exact fun f => rfl
  | cons a as ih =>
    intro f
    have ha := has a List.mem_cons_self
    refine Eq.trans (congrArg (takenOut as) ?_)
      (ih (fun b hb => has b (List.mem_cons_of_mem _ hb)) _)
    exact replaceAll_mapWords (ne_nil_of_mem_spellings ha) (h.spelled a ha) f text []

/-- The pass works on each word of the line. -/
theorem Delimits.withoutServers_words (h : Delimits inWord servers) (text : List Char) :
    withoutServers text servers = mapWords inWord (takenOut (spellings servers)) text := by
  have hid : mapWords inWord id text = text := mapWordsFrom_id text []
  have hwords := h.takenOut_mapWords text (fun a ha => ha) id
  rw [hid] at hwords
  exact (withoutServers_eq text servers).trans hwords

/-- **When the lines do not depend on the address.**  For the lines over a set
of words, every server's address is marked and every other word left whole
exactly if the first address that occurs in a word is always the whole of it.
Two such lines that differ only in the servers they name are then one. -/
theorem redactedText_iff (h : Delimits inWord servers) {W : Set (List Char)}
    (hW : ∀ w ∈ W, ∀ c ∈ w, inWord c = true) :
    ((∀ text, (∀ w ∈ words inWord text, w ∈ W) →
        withoutServers text servers = marked inWord servers text) ↔
      ∀ w ∈ W, Whole (spellings servers) w) ∧
    ((∀ w ∈ W, Whole (spellings servers) w) →
      ∀ text₁ text₂, (∀ w ∈ words inWord text₁, w ∈ W) → (∀ w ∈ words inWord text₂, w ∈ W) →
        marked inWord servers text₁ = marked inWord servers text₂ →
          redactedText text₁ servers = redactedText text₂ servers) := by
  have hword : ∀ w ∈ W, _ ↔ Whole (spellings servers) w := fun w hw =>
    h.word_iff (hW w hw) fun a ha => ha
  have hgood : (∀ w ∈ W, Whole (spellings servers) w) → ∀ text,
      (∀ w ∈ words inWord text, w ∈ W) →
        withoutServers text servers = marked inWord servers text := by
    intro hwhole text hover
    rw [h.withoutServers_words]
    exact mapWordsFrom_congr fun w hw => (hword w (hover w hw)).mpr (hwhole w (hover w hw))
  refine ⟨⟨fun hall w hw => (hword w hw).mp ?_, hgood⟩, ?_⟩
  · -- The line that is this word alone.
    have hline := hall w (by simpa [words, wordsFrom_word (hW w hw)] using hw)
    rw [h.withoutServers_words, marked, mapWords, mapWords, mapWordsFrom_word (hW w hw),
      mapWordsFrom_word (hW w hw)] at hline
    exact hline
  · intro hwhole text₁ text₂ hover₁ hover₂ hsame
    rw [redactedText, redactedText, hgood hwhole _ hover₁, hgood hwhole _ hover₂, hsame]

end Passes

/-! ## Two servers -/

def inAddress (c : Char) : Bool := c.isDigit || ('a' ≤ c && c ≤ 'f') || c = '.' || c = ':'

/-- The host route to a server, as it is printed. -/
def routeLine (server : Addr) : List Char :=
  ("ip route add " ++ server.text ++ "/32 via 192.168.1.1 dev eth0").toList

def firstServer : Addr := .v4 0xcb007101#32
def otherServer : Addr := .v4 0xc6336407#32
/-- The first server's address with a digit behind it. -/
def longerServer : Addr := .v4 0xcb007111#32

theorem routes_alike :
    marked inAddress [firstServer, otherServer] (routeLine firstServer) =
        marked inAddress [firstServer, otherServer] (routeLine otherServer) ∧
      redactedText (routeLine firstServer) [firstServer, otherServer] =
        redactedText (routeLine otherServer) [firstServer, otherServer] := by
  have hsame : marked inAddress [firstServer, otherServer] (routeLine firstServer) =
      marked inAddress [firstServer, otherServer] (routeLine otherServer) := by decide
  refine ⟨hsame, ?_⟩
  have hdelimits : Delimits inAddress [firstServer, otherServer] :=
    ⟨by decide, by decide, by decide⟩
  let W : Set (List Char) := fun w =>
    w ∈ words inAddress (routeLine firstServer) ++ words inAddress (routeLine otherServer)
  refine (redactedText_iff hdelimits (W := W) ?_).2 ?_ _ _ ?_ ?_ hsame
  · exact (by decide : ∀ w ∈ words inAddress (routeLine firstServer) ++
      words inAddress (routeLine otherServer), ∀ c ∈ w, inAddress c = true)
  · exact (by decide : ∀ w ∈ words inAddress (routeLine firstServer) ++
      words inAddress (routeLine otherServer), Whole (spellings [firstServer, otherServer]) w)
  · exact fun w hw => List.mem_append_left _ hw
  · exact fun w hw => List.mem_append_right _ hw

/-- The longer address keeps its last digit, so the lines tell the two apart. -/
theorem longer_address_shows :
    marked inAddress [firstServer, longerServer] (routeLine firstServer) =
        marked inAddress [firstServer, longerServer] (routeLine longerServer) ∧
      redactedText (routeLine firstServer) [firstServer, longerServer] =
        "ip route add [server]/32 via 192.168.1.1 dev eth0".toList ∧
      redactedText (routeLine longerServer) [firstServer, longerServer] =
        "ip route add [server]7/32 via 192.168.1.1 dev eth0".toList := by
  decide

end Caspian.Privsvc
