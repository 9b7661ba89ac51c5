import Caspian.Verified.Bytes

/-!
# Where a ClientHello is cut

`helloSplitPosition` walks over a ClientHello by its lengths and returns the
middle of the host name in its server name extension, or the place after the
first byte when there is none.

What a ClientHello *is* stands here as well: `ClientHello` with its extensions
and the names in them, and the bytes they are written as.  `HostNameAt` says
that a host name stands at an offset of a ClientHello, and
`helloSplitPosition_hostName` that the position returned is in the middle of
the last one.
-/

namespace Caspian.Snispoof

open Verified.Bytes

/-! ## The walk -/

/-- The names of the extension, from `q` to `stop`; every name takes four
bytes at least, so there is fuel for all of them. -/
def serverNames (b : List UInt8) (stop : Nat) : Nat → Nat → Nat → Option Nat
  | 0, _, _ => none
  | fuel + 1, q, cut =>
    if q < stop then
      if stop < q + 3 then none
      else
        let size := u16At b (q + 1)
        if size = 0 ∨ stop < q + 3 + size then none
        else
          serverNames b stop fuel (q + 3 + size)
            (if byteAt b q = 0 then q + 3 + size / 2 else cut)
    else some cut

/-- The extensions, from `p` to the end. -/
def extensions (b : List UInt8) : Nat → Nat → Nat → Bool → Option Nat
  | 0, _, _, _ => none
  | fuel + 1, p, cut, seen =>
    if p < b.length then
      if b.length < p + 4 then none
      else
        let n := u16At b (p + 2)
        if b.length < p + 4 + n then none
        else if u16At b p = 0 then
          if seen ∨ n < 5 ∨ u16At b (p + 4) ≠ n - 2 then none
          else
            match serverNames b (p + 4 + n) (b.length + 1) (p + 4 + 2) cut with
            | none => none
            | some cut => extensions b fuel (p + 4 + n) cut true
        else extensions b fuel (p + 4 + n) cut seen
    else some cut

/-- The end of the parts every ClientHello has: the legacy version and the
random number, the session, the ciphers and the compression methods. -/
def fixedEnd (b : List UInt8) : Option Nat :=
  if b.length < 39 then none
  else
    let session := byteAt b 38
    if 32 < session ∨ b.length < 39 + session + 2 then none
    else
      let p := 39 + session
      let ciphers := u16At b p
      if ciphers = 0 ∨ ciphers % 2 ≠ 0 ∨ b.length < p + 2 + ciphers + 1 then none
      else
        let p := p + 2 + ciphers
        let compression := byteAt b p
        if compression = 0 ∨ b.length < p + 1 + compression then none
        else some (p + 1 + compression)

/-- `helloSplitPosition`. -/
def helloSplitPosition (b : List UInt8) : Option Nat :=
  match fixedEnd b with
  | none => none
  | some p =>
    if p = b.length then some 1
    else if b.length < p + 2 ∨ u16At b p ≠ b.length - p - 2 then none
    else extensions b (b.length + 1) (p + 2) 1 false

/-! ## What the walk has seen -/

variable {b : List UInt8} {stop fuel q cut cut' : Nat}

/-- One name. -/
theorem of_serverNames (hlt : q < stop) (h : serverNames b stop (fuel + 1) q cut = some cut') :
    q + 3 ≤ stop ∧ u16At b (q + 1) ≠ 0 ∧ q + 3 + u16At b (q + 1) ≤ stop ∧
      serverNames b stop fuel (q + 3 + u16At b (q + 1))
        (if byteAt b q = 0 then q + 3 + u16At b (q + 1) / 2 else cut) = some cut' := by
  unfold serverNames at h
  dsimp only at h
  rw [if_pos hlt, Option.ite_none_left_eq_some, Option.ite_none_left_eq_some] at h
  obtain ⟨hshort, hsize, h⟩ := h
  exact ⟨by omega, by omega, by omega, h⟩

/-- The end of the names. -/
theorem of_serverNames_end (hle : stop ≤ q) (h : serverNames b stop fuel q cut = some cut') :
    cut' = cut := by
  cases fuel with
  | zero => cases h
  | succ fuel =>
    unfold serverNames at h
    rw [if_neg (by omega)] at h
    exact (Option.some.inj h).symm

variable {p : Nat} {seen : Bool}

/-- One extension: its names, if it is the first server name extension, and
nothing of it otherwise. -/
theorem of_extensions (hlt : p < b.length) (h : extensions b (fuel + 1) p cut seen = some cut') :
    p + 4 + u16At b (p + 2) ≤ b.length ∧
      ((u16At b p = 0 ∧ seen = false ∧
        ∃ cut1, serverNames b (p + 4 + u16At b (p + 2)) (b.length + 1) (p + 4 + 2) cut = some cut1 ∧
          extensions b fuel (p + 4 + u16At b (p + 2)) cut1 true = some cut') ∨
      (u16At b p ≠ 0 ∧ extensions b fuel (p + 4 + u16At b (p + 2)) cut seen = some cut')) := by
  unfold extensions at h
  dsimp only at h
  rw [if_pos hlt, Option.ite_none_left_eq_some, Option.ite_none_left_eq_some] at h
  obtain ⟨hshort, hlong, h⟩ := h
  refine ⟨by omega, ?_⟩
  by_cases hkind : u16At b p = 0
  · rw [if_pos hkind] at h
    obtain ⟨hbad, h⟩ := Option.ite_none_left_eq_some.mp h
    simp only [not_or, Bool.not_eq_true] at hbad
    split at h
    · cases h
    · rename_i cut1 hnames
      exact Or.inl ⟨hkind, hbad.1, cut1, hnames, h⟩
  · rw [if_neg hkind] at h
    exact Or.inr ⟨hkind, h⟩

theorem of_extensions_end (hle : b.length ≤ p) (h : extensions b fuel p cut seen = some cut') :
    cut' = cut := by
  cases fuel with
  | zero => cases h
  | succ fuel =>
    unfold extensions at h
    rw [if_neg (by omega)] at h
    exact (Option.some.inj h).symm

/-- The fixed parts, one after the other. -/
theorem of_fixedEnd (h : fixedEnd b = some p) :
    39 ≤ b.length ∧ p ≤ b.length ∧
      p = 39 + byteAt b 38 + 2 + u16At b (39 + byteAt b 38) + 1 +
        byteAt b (39 + byteAt b 38 + 2 + u16At b (39 + byteAt b 38)) := by
  unfold fixedEnd at h
  dsimp only at h
  split_ifs at h with hshort hsession hciphers hcompression
  have hp := (Option.some.inj h).symm
  omega

/-! ## The position is inside -/

theorem serverNames_inside (hstop : stop ≤ b.length) (hcut : 0 < cut ∧ cut < b.length)
    (h : serverNames b stop fuel q cut = some cut') : 0 < cut' ∧ cut' < b.length := by
  induction fuel generalizing q cut with
  | zero => cases h
  | succ fuel ih =>
    by_cases hlt : q < stop
    · obtain ⟨hshort, hsize, hend, hrest⟩ := of_serverNames hlt h
      apply ih _ hrest
      split
      · omega
      · exact hcut
    · rw [of_serverNames_end (by omega) h]
      exact hcut

theorem extensions_inside (hcut : 0 < cut ∧ cut < b.length)
    (h : extensions b fuel p cut seen = some cut') : 0 < cut' ∧ cut' < b.length := by
  induction fuel generalizing p cut seen with
  | zero => cases h
  | succ fuel ih =>
    by_cases hlt : p < b.length
    · obtain ⟨hend, ⟨-, -, cut1, hnames, hrest⟩ | ⟨-, hrest⟩⟩ := of_extensions hlt h
      · exact ih (serverNames_inside hend hcut hnames) hrest
      · exact ih hcut hrest
    · rw [of_extensions_end (by omega) h]
      exact hcut

/-- The position is neither the beginning nor the end. -/
theorem helloSplitPosition_inside (h : helloSplitPosition b = some cut) :
    0 < cut ∧ cut < b.length := by
  unfold helloSplitPosition at h
  split at h
  · cases h
  · rename_i p hfixed
    obtain ⟨hlen, hp, -⟩ := of_fixedEnd hfixed
    split_ifs at h
    · rw [← Option.some.inj h]
      omega
    · exact extensions_inside (by omega) h

/-! ## ClientHellos -/

/-- A name of the server name extension. -/
structure ServerName where
  type : UInt8
  name : List UInt8
  size : name.length < 65536

def ServerName.bytes (s : ServerName) : List UInt8 := s.type :: (be16 s.name.length ++ s.name)

structure Extension where
  kind : Nat
  body : List UInt8
  kind_lt : kind < 65536
  size : body.length < 65536

def Extension.bytes (e : Extension) : List UInt8 :=
  be16 e.kind ++ (be16 e.body.length ++ e.body)

/-- The body of a server name extension. -/
def serverNameList (names : List ServerName) : List UInt8 :=
  be16 (names.flatMap ServerName.bytes).length ++ names.flatMap ServerName.bytes

/-- A ClientHello: type, length, version and random number in the head, then
what `helloSplitPosition` walks over. -/
structure ClientHello where
  head : List UInt8
  session : List UInt8
  ciphers : List UInt8
  compression : List UInt8
  extensions : Option (List Extension)
  head_size : head.length = 38
  session_size : session.length < 256
  ciphers_size : ciphers.length < 65536
  compression_size : compression.length < 256

namespace ClientHello

def fixed (h : ClientHello) : List UInt8 :=
  h.head ++ (UInt8.ofNat h.session.length :: (h.session ++ (be16 h.ciphers.length ++ (h.ciphers ++
    (UInt8.ofNat h.compression.length :: h.compression)))))

def bytes (h : ClientHello) : List UInt8 :=
  match h.extensions with
  | none => h.fixed
  | some es => h.fixed ++ (be16 (es.flatMap Extension.bytes).length ++ es.flatMap Extension.bytes)

end ClientHello

/-- In the ClientHello `b` a host name stands at `q`; `later` are the names of
its list that follow it. -/
def HostNameAt (b : List UInt8) (q : Nat) (name : List UInt8) (later : List ServerName) : Prop :=
  ∃ (h : ClientHello) (before : List Extension) (e : Extension) (after : List Extension)
    (earlier : List ServerName) (s : ServerName),
    b = h.bytes ∧ h.extensions = some (before ++ e :: after) ∧
    e.kind = 0 ∧ e.body = serverNameList (earlier ++ s :: later) ∧ s.type = 0 ∧ s.name = name ∧
    q = h.fixed.length + 2 + (before.flatMap Extension.bytes).length + 6 +
      (earlier.flatMap ServerName.bytes).length + 3

/-! ## The walk over a ClientHello -/

theorem ServerName.length_bytes (s : ServerName) : s.bytes.length = 3 + s.name.length := by
  simp only [ServerName.bytes, List.length_cons, List.length_append, length_be16]
  omega

theorem Extension.length_bytes (e : Extension) : e.bytes.length = 4 + e.body.length := by
  simp only [Extension.bytes, List.length_append, length_be16]
  omega

theorem byteAt_serverName (pre post : List UInt8) (s : ServerName) :
    byteAt (pre ++ (s.bytes ++ post)) pre.length = s.type.toNat :=
  byteAt_append pre s.type _

theorem u16At_serverName (pre post : List UInt8) (s : ServerName) :
    u16At (pre ++ (s.bytes ++ post)) (pre.length + 1) = s.name.length := by
  have hsplit : pre ++ (s.bytes ++ post) =
      (pre ++ [s.type]) ++ (be16 s.name.length ++ (s.name ++ post)) := by
    simp [ServerName.bytes]
  rw [hsplit, show pre.length + 1 = (pre ++ [s.type]).length by simp, u16At_append s.size]

theorem u16At_kind (pre post : List UInt8) (e : Extension) :
    u16At (pre ++ (e.bytes ++ post)) pre.length = e.kind := by
  have hsplit : pre ++ (e.bytes ++ post) =
      pre ++ (be16 e.kind ++ (be16 e.body.length ++ e.body ++ post)) := by
    simp [Extension.bytes]
  rw [hsplit, u16At_append e.kind_lt]

theorem u16At_bodySize (pre post : List UInt8) (e : Extension) :
    u16At (pre ++ (e.bytes ++ post)) (pre.length + 2) = e.body.length := by
  have hsplit : pre ++ (e.bytes ++ post) =
      (pre ++ be16 e.kind) ++ (be16 e.body.length ++ (e.body ++ post)) := by
    simp [Extension.bytes]
  rw [hsplit, show pre.length + 2 = (pre ++ be16 e.kind).length by simp, u16At_append e.size]

/-- The position the names leave: the middle of the last host name. -/
def lastHost : Nat → List ServerName → Nat → Nat
  | _, [], cut => cut
  | q, s :: names, cut =>
    lastHost (q + 3 + s.name.length) names
      (if s.type = 0 then q + 3 + s.name.length / 2 else cut)

variable {pre : List UInt8} {names : List ServerName}

theorem serverNames_eq_lastHost {post : List UInt8}
    (hb : b = pre ++ (names.flatMap ServerName.bytes ++ post)) (hq : q = pre.length)
    (hstop : stop = q + (names.flatMap ServerName.bytes).length)
    (h : serverNames b stop fuel q cut = some cut') : cut' = lastHost q names cut := by
  induction names generalizing pre q cut fuel with
  | nil => exact of_serverNames_end (by simp [hstop]) h
  | cons s names ih =>
    rw [List.flatMap_cons, List.append_assoc] at hb
    rw [List.flatMap_cons, List.length_append, s.length_bytes] at hstop
    cases fuel with
    | zero => cases h
    | succ fuel =>
      obtain ⟨-, -, -, hrest⟩ := of_serverNames (by omega) h
      have htype : byteAt b q = s.type.toNat := by rw [hb, hq, byteAt_serverName]
      have hsize : u16At b (q + 1) = s.name.length := by rw [hb, hq, u16At_serverName]
      have hzero : (s.type.toNat = 0) = (s.type = 0) := by
        rw [← UInt8.toNat_inj]
        rfl
      simp only [htype, hsize, hzero] at hrest
      have hb' : b = (pre ++ s.bytes) ++ (names.flatMap ServerName.bytes ++ post) := by
        rw [hb, List.append_assoc]
      apply ih hb' _ _ hrest
      · rw [List.length_append, s.length_bytes, hq]
        omega
      · omega

theorem lastHost_append (q : Nat) (earlier later : List ServerName) (cut : Nat) :
    lastHost q (earlier ++ later) cut =
      lastHost (q + (earlier.flatMap ServerName.bytes).length) later (lastHost q earlier cut) := by
  induction earlier generalizing q cut with
  | nil => rfl
  | cons s earlier ih =>
    rw [List.cons_append, lastHost, lastHost, ih, List.flatMap_cons, List.length_append,
      s.length_bytes]
    congr 1
    omega

theorem lastHost_of_no_host (h : ∀ s ∈ names, s.type ≠ 0) (q cut : Nat) :
    lastHost q names cut = cut := by
  induction names generalizing q with
  | nil => rfl
  | cons s names ih =>
    rw [lastHost, if_neg (h s List.mem_cons_self)]
    exact ih (fun t ht => h t (List.mem_cons_of_mem _ ht)) _

/-- The walk passes over any extensions. -/
theorem extensions_skip {rest : List UInt8} {before : List Extension}
    (hb : b = pre ++ (before.flatMap Extension.bytes ++ rest)) (hp : p = pre.length)
    (h : extensions b fuel p cut seen = some cut') :
    ∃ fuel1 cut1 seen1,
      extensions b fuel1 (p + (before.flatMap Extension.bytes).length) cut1 seen1 = some cut' := by
  induction before generalizing pre p cut seen fuel with
  | nil => exact ⟨fuel, cut, seen, h⟩
  | cons e before ih =>
    rw [List.flatMap_cons, List.append_assoc] at hb
    cases fuel with
    | zero => cases h
    | succ fuel =>
      have hlt : p < b.length := by
        rw [hb, hp, List.length_append, List.length_append, e.length_bytes]
        omega
      have hsize : u16At b (p + 2) = e.body.length := by rw [hb, hp, u16At_bodySize]
      have hnext : b = (pre ++ e.bytes) ++ (before.flatMap Extension.bytes ++ rest) := by
        rw [hb, List.append_assoc]
      have hpos : p + 4 + e.body.length = (pre ++ e.bytes).length := by
        rw [List.length_append, e.length_bytes, hp]
        omega
      have hgoal : p + ((e :: before).flatMap Extension.bytes).length =
          p + 4 + e.body.length + (before.flatMap Extension.bytes).length := by
        rw [List.flatMap_cons, List.length_append, e.length_bytes]
        omega
      rw [hgoal]
      obtain ⟨-, hcase⟩ := of_extensions hlt h
      rw [hsize] at hcase
      rcases hcase with ⟨-, -, cut1, -, hrest⟩ | ⟨-, hrest⟩ <;> exact ih hnext hpos hrest

/-- After the server names nothing moves the position. -/
theorem extensions_seen (h : extensions b fuel p cut true = some cut') : cut' = cut := by
  induction fuel generalizing p with
  | zero => cases h
  | succ fuel ih =>
    by_cases hlt : p < b.length
    · obtain ⟨-, ⟨-, hseen, -⟩ | ⟨-, hrest⟩⟩ := of_extensions hlt h
      · cases hseen
      · exact ih hrest
    · exact of_extensions_end (by omega) h

namespace ClientHello

theorem length_fixed (h : ClientHello) :
    h.fixed.length = 42 + h.session.length + h.ciphers.length + h.compression.length := by
  simp only [fixed, List.length_append, List.length_cons, length_be16, h.head_size]
  omega

/-- The walk finds the end of the fixed parts. -/
theorem fixedEnd_eq (h : ClientHello) (rest : List UInt8)
    (hfixed : fixedEnd (h.fixed ++ rest) = some p) : p = h.fixed.length := by
  obtain ⟨-, -, hp⟩ := of_fixedEnd hfixed
  have hsession : byteAt (h.fixed ++ rest) 38 = h.session.length := by
    rw [fixed, List.append_assoc, List.cons_append, ← h.head_size, byteAt_append,
      UInt8.toNat_ofNat', Nat.mod_eq_of_lt h.session_size]
  have hciphers : u16At (h.fixed ++ rest) (39 + h.session.length) = h.ciphers.length := by
    have hsplit : h.fixed ++ rest = (h.head ++ (UInt8.ofNat h.session.length :: h.session)) ++
        (be16 h.ciphers.length ++ (h.ciphers ++
          (UInt8.ofNat h.compression.length :: (h.compression ++ rest)))) := by
      simp [fixed]
    have hlen : 39 + h.session.length =
        (h.head ++ (UInt8.ofNat h.session.length :: h.session)).length := by
      rw [List.length_append, List.length_cons, h.head_size]
      omega
    rw [hsplit, hlen, u16At_append h.ciphers_size]
  have hcompression : byteAt (h.fixed ++ rest) (39 + h.session.length + 2 + h.ciphers.length) =
      h.compression.length := by
    have hsplit : h.fixed ++ rest = (h.head ++ (UInt8.ofNat h.session.length :: (h.session ++
        (be16 h.ciphers.length ++ h.ciphers)))) ++
          UInt8.ofNat h.compression.length :: (h.compression ++ rest) := by
      simp [fixed]
    have hlen : 39 + h.session.length + 2 + h.ciphers.length = (h.head ++
        (UInt8.ofNat h.session.length :: (h.session ++ (be16 h.ciphers.length ++ h.ciphers)))).length := by
      simp only [List.length_append, List.length_cons, length_be16, h.head_size]
      omega
    rw [hsplit, hlen, byteAt_append, UInt8.toNat_ofNat', Nat.mod_eq_of_lt h.compression_size]
  rw [hsession, hciphers, hcompression] at hp
  rw [hp, length_fixed]
  omega

end ClientHello

/-- The server name extension moves the position into its last host name. -/
theorem extensions_names {post : List UInt8} {e : Extension} (hb : b = pre ++ (e.bytes ++ post))
    (hkind : e.kind = 0) (hbody : e.body = serverNameList names)
    (h : extensions b fuel pre.length cut seen = some cut') :
    cut' = lastHost (pre.length + 6) names cut := by
  have hkind' : u16At b pre.length = 0 := by rw [hb, u16At_kind, hkind]
  have hsize : u16At b (pre.length + 2) = e.body.length := by rw [hb, u16At_bodySize]
  have hlen : b.length = pre.length + (4 + e.body.length + post.length) := by
    rw [hb, List.length_append, List.length_append, e.length_bytes]
  cases fuel with
  | zero => cases h
  | succ fuel =>
    obtain ⟨-, ⟨-, -, cut1, hnames, hafter⟩ | ⟨hother, -⟩⟩ := of_extensions (by omega) h
    · rw [extensions_seen hafter]
      rw [hsize] at hnames
      have hstart : b = (pre ++ (be16 e.kind ++ (be16 e.body.length ++
          be16 (names.flatMap ServerName.bytes).length))) ++
            (names.flatMap ServerName.bytes ++ post) := by
        rw [hb, Extension.bytes, hbody, serverNameList]
        simp only [List.append_assoc]
      have hbodyLen : e.body.length = 2 + (names.flatMap ServerName.bytes).length := by
        rw [hbody, serverNameList, List.length_append, length_be16]
      apply serverNames_eq_lastHost hstart _ _ hnames
      · simp only [List.length_append, length_be16]
      · omega
    · exact absurd hkind' hother

/-- **The position is in the middle of the last host name.** -/
theorem helloSplitPosition_hostName {name : List UInt8} {later : List ServerName}
    (h : helloSplitPosition b = some cut) (hname : HostNameAt b q name later)
    (hlast : ∀ s ∈ later, s.type ≠ 0) : cut = q + name.length / 2 := by
  obtain ⟨ch, before, e, after, earlier, s, hb, hext, hkind, hbody, htype, hsname, hq⟩ := hname
  obtain ⟨total, hbytes⟩ : ∃ total, b = ch.fixed ++ (be16 total ++
      (before.flatMap Extension.bytes ++ (e.bytes ++ after.flatMap Extension.bytes))) := by
    refine ⟨((before ++ e :: after).flatMap Extension.bytes).length, ?_⟩
    rw [hb, ClientHello.bytes, hext]
    dsimp only
    rw [List.flatMap_append, List.flatMap_cons]
  unfold helloSplitPosition at h
  split at h
  · cases h
  rename_i p hfixed
  rw [hbytes] at hfixed
  have hp := ch.fixedEnd_eq _ hfixed
  split_ifs at h with hend hbad
  · -- there are extensions
    rw [hbytes, hp, List.length_append, List.length_append, length_be16] at hend
    omega
  have hpre : b = (ch.fixed ++ be16 total) ++ (before.flatMap Extension.bytes ++
      (e.bytes ++ after.flatMap Extension.bytes)) := by
    rw [hbytes, List.append_assoc]
  have hpos : p + 2 = (ch.fixed ++ be16 total).length := by
    rw [hp, List.length_append, length_be16]
  obtain ⟨fuel, cut0, seen, hext⟩ := extensions_skip hpre hpos h
  have hat : b = (ch.fixed ++ be16 total ++ before.flatMap Extension.bytes) ++
      (e.bytes ++ after.flatMap Extension.bytes) := by
    simp only [hpre, List.append_assoc]
  rw [hpos, ← List.length_append] at hext
  rw [extensions_names hat hkind hbody hext, lastHost_append, lastHost, if_pos htype,
    lastHost_of_no_host hlast, hsname, hq]
  simp only [List.length_append, length_be16]

end Caspian.Snispoof
