import Caspian.Panel.Session

/-!
# Signing in, and what ends a session

The requests that touch the panel's password or its sessions, as processes that
take turns.  A turn is one atomic step of a handler: a look at the stored
password, a change of it, or one use of the session store or of the limiter.
`handleLogin`, `handleSetup` and `handlePassword` hold `authMu` from their first
step on; the other requests do not, and may come in between any two of them.

What a turn cannot know beforehand is in its `Turn`: the two readings of the
clock, the random tokens it draws, whether a save succeeded and what it stored.
Besides what the panel keeps, the state records what has happened, for the
statements: the verifiers stored so far, how each session came about, when it
was used, and which have been ended.
-/

namespace Caspian.Panel

open Verified

/-! ## Requests -/

def minPanelPassword : Nat := 8

/-- `checkFormToken`, from the cookie and the field of the form. -/
def checkFormToken (cookie : Option String) (got : String) : Bool :=
  match cookie with
  | none => false
  | some value => value ≠ "" && got ≠ "" && value = got

structure LoginRequest where
  formCookie : Option String
  csrf : String
  client : String
  password : String

structure SetupRequest where
  formCookie : Option String
  csrf : String
  password : String
  confirm : String

structure PasswordRequest where
  client : String
  current : String
  password : String
  confirm : String

/-- What a request wants behind the gate. -/
inductive Wanted where
  | page
  | logout
  | password (r : PasswordRequest)

/-- A request that `requireSession` guards. -/
structure GatedRequest where
  cookie : Option String
  /-- The method is neither `GET` nor `HEAD`. -/
  post : Bool
  csrf : String
  wanted : Wanted

/-- Where a request is.  From the points after a lock on it holds `authMu`. -/
inductive Point where
  | done
  -- requireSession
  | gate (r : GatedRequest)
  | gateSession (r : GatedRequest)
  -- handleLoginForm
  | loginForm (cookie : Option String)
  | loginFormSession (cookie : Option String)
  -- handleLogout
  | logout (cookie : Option String)
  -- handleLogin
  | loginLock (r : LoginRequest)
  | loginCheck (r : LoginRequest)
  | loginAllow (r : LoginRequest)
  | loginVerify (r : LoginRequest)
  | loginSucceed (r : LoginRequest) (version : Nat)
  | loginCreate (r : LoginRequest) (version : Nat)
  -- handleSetup
  | setupLock (r : SetupRequest)
  | setupCheck (r : SetupRequest)
  | setupSet (r : SetupRequest)
  | setupCreate
  -- handlePassword
  | passwordLock (cookie : Option String) (r : PasswordRequest)
  | passwordSession (cookie : Option String) (r : PasswordRequest)
  | passwordAllow (r : PasswordRequest)
  | passwordVerify (r : PasswordRequest)
  | passwordSucceed (r : PasswordRequest)
  | passwordSet (r : PasswordRequest)
  | passwordDestroy

/-- A request begins at one of these. -/
def Point.first : Point → Bool
  | .gate _ | .loginForm _ | .loginLock _ | .setupLock _ => true
  | _ => false

/-- The points at which `authMu` is held. -/
def Point.inside : Point → Bool
  | .loginCheck _ | .loginAllow _ | .loginVerify _ | .loginSucceed _ _ | .loginCreate _ _
  | .setupCheck _ | .setupSet _ | .setupCreate
  | .passwordSession _ _ | .passwordAllow _ | .passwordVerify _ | .passwordSucceed _
  | .passwordSet _ | .passwordDestroy => true
  | _ => false

/-! ## The state -/

/-- How a session came about: a login that verified the password of this version,
or the first setup. -/
inductive Origin where
  | login (version : Nat) (password : String)
  | setup
  deriving DecidableEq

/-- A session that was created. -/
structure Birth where
  token : String
  time : Nat
  origin : Origin
  deriving DecidableEq

/-- The password and the sessions. -/
structure Book (Verifier : Type) where
  sessions : SessionStore := .empty
  /-- The verifiers stored so far, the oldest first; a version is a place here. -/
  stored : List Verifier := []
  born : List Birth := []
  /-- When a token was given out or accepted. -/
  uses : List (String × Nat) := []
  /-- The tokens whose sessions were destroyed. -/
  ended : List String := []
  /-- The version the last finished change of the password stored. -/
  changedTo : Option Nat := none

structure AuthState (Verifier : Type) where
  clock : Nat := 0
  authMu : Option Nat := none
  points : Nat → Point := fun _ => .done
  /-- The calls of the limiter, the newest first; they determine its buckets. -/
  calls : List Event := []
  book : Book Verifier := {}

/-- What one turn is told from outside. -/
structure Turn (Verifier : Type) where
  now : Nat
  later : Nat
  token : String := ""
  csrf : String := ""
  /-- `newToken` did not fail. -/
  drawn : Bool := true
  /-- `SetPanelPassword` did not fail. -/
  saved : Bool := true
  verifier : Verifier

namespace Book

variable {Verifier : Type} (d : Digest) (verify : Verifier → String → Option Bool)

/-- The stored verifier. -/
def panel (b : Book Verifier) : Option Verifier := b.stored.getLast?

/-- `currentSession`. -/
def currentSession (b : Book Verifier) (cookie : Option String) (o : Turn Verifier) :
    Book Verifier × Option Session :=
  match cookie with
  | none => (b, none)
  | some token =>
    let found := lookupSession d b.sessions token o.now o.later
    match found.2 with
    | none => ({ b with sessions := found.1 }, none)
    | some sess =>
      ({ b with sessions := found.1, uses := (token, o.later) :: b.uses }, some sess)

/-- The token is not empty and has not been seen before. -/
def Fresh (b : Book Verifier) (token : String) : Prop :=
  token ≠ "" ∧ token ∉ b.born.map Birth.token ∧ token ∉ b.ended

instance (b : Book Verifier) (token : String) : Decidable (b.Fresh token) :=
  inferInstanceAs (Decidable (_ ∧ _ ∧ _))

/-- `startSession`, for a session with this origin.  What is assumed of the random
tokens is that each is new. -/
def startSession (b : Book Verifier) (origin : Origin) (o : Turn Verifier) :
    Option (Book Verifier) :=
  if o.drawn = false then some b
  else if b.Fresh o.token then
    some { b with
      sessions := createSession d b.sessions o.token o.csrf o.now o.later
      born := ⟨o.token, o.later, origin⟩ :: b.born
      uses := (o.token, o.later) :: b.uses }
  else none

/-- `destroy` with the value of the cookie. -/
def destroyCookie (b : Book Verifier) (cookie : Option String) : Book Verifier :=
  match cookie with
  | none => b
  | some token =>
    { b with sessions := destroySession d b.sessions token, ended := token :: b.ended }

/-- `destroyAll`, the last step of a change of the password. -/
def destroyAllSessions (b : Book Verifier) : Book Verifier :=
  { b with
    sessions := destroyAll
    ended := b.born.map Birth.token ++ b.ended
    changedTo := some (b.stored.length - 1) }

/-- `SetPanelPassword`. -/
def setPanelPassword (b : Book Verifier) (verifier : Verifier) : Book Verifier :=
  { b with stored := b.stored ++ [verifier] }

/-- `VerifyPanelPassword`: an error is `none`. -/
def verifyPanelPassword (b : Book Verifier) (plaintext : String) : Option Bool :=
  b.panel.bind fun stored => verify stored plaintext

end Book

namespace AuthState

variable {Verifier : Type} (d : Digest) (verify : Verifier → String → Option Bool)

def goto (s : AuthState Verifier) (pid : Nat) (p : Point) : AuthState Verifier :=
  { s with points := Function.update s.points pid p }

/-- Wait for `authMu`. -/
def lock (s : AuthState Verifier) (pid : Nat) (p : Point) : Option (AuthState Verifier) :=
  if s.authMu = none then some ({ s with authMu := some pid }.goto pid p) else none

/-- Return from a handler that holds `authMu`. -/
def leave (s : AuthState Verifier) (pid : Nat) : AuthState Verifier :=
  { s with authMu := none }.goto pid .done

def withBook (s : AuthState Verifier) (book : Book Verifier) : AuthState Verifier :=
  { s with book := book }

/-- Record a call of the limiter. -/
def called (s : AuthState Verifier) (now : Nat) (call : Call) : AuthState Verifier :=
  { s with calls := ⟨now, call⟩ :: s.calls }

/-- The limiter's answer to an attempt. -/
def allows (s : AuthState Verifier) (client : String) (now : Nat) : Bool :=
  (allow (limiterAfter s.calls) client now).2.ok

/-! ## A turn -/

/-- The next step of a request. -/
def advance (s : AuthState Verifier) (pid : Nat) (o : Turn Verifier) :
    Point → Option (AuthState Verifier)
  | .done => none
  | .gate r => some (s.goto pid (if s.book.panel.isSome then .gateSession r else .done))
  | .gateSession r =>
    let found := s.book.currentSession d r.cookie o
    some ((s.withBook found.1).goto pid <|
      match found.2 with
      | none => .done
      | some sess =>
        if r.post = true ∧ sess.checkCSRF r.csrf = false then .done
        else
          match r.wanted with
          | .page => .done
          | .logout => .logout r.cookie
          | .password form => .passwordLock r.cookie form)
  | .loginForm cookie =>
    some (s.goto pid (if s.book.panel.isSome then .loginFormSession cookie else .done))
  | .loginFormSession cookie =>
    some ((s.withBook (s.book.currentSession d cookie o).1).goto pid .done)
  | .logout cookie => some ((s.withBook (s.book.destroyCookie d cookie)).goto pid .done)
  | .loginLock r => s.lock pid (.loginCheck r)
  | .loginCheck r =>
    if s.book.panel.isSome ∧ checkFormToken r.formCookie r.csrf = true then
      some (s.goto pid (.loginAllow r))
    else some (s.leave pid)
  | .loginAllow r =>
    if s.allows r.client o.now then
      some ((s.called o.now (.allow r.client)).goto pid (.loginVerify r))
    else some ((s.called o.now (.allow r.client)).leave pid)
  | .loginVerify r =>
    if s.book.verifyPanelPassword verify r.password = some true then
      some (s.goto pid (.loginSucceed r (s.book.stored.length - 1)))
    else some (s.leave pid)
  | .loginSucceed r version =>
    some ((s.called o.now (.succeed r.client)).goto pid (.loginCreate r version))
  | .loginCreate r version =>
    (s.book.startSession d (.login version r.password) o).map fun book =>
      (s.withBook book).leave pid
  | .setupLock r => s.lock pid (.setupCheck r)
  | .setupCheck r =>
    if s.book.panel.isNone ∧ checkFormToken r.formCookie r.csrf = true ∧
        minPanelPassword ≤ r.password.length ∧ r.password = r.confirm then
      some (s.goto pid (.setupSet r))
    else some (s.leave pid)
  | .setupSet _ =>
    if o.saved then some ((s.withBook (s.book.setPanelPassword o.verifier)).goto pid .setupCreate)
    else some (s.leave pid)
  | .setupCreate =>
    (s.book.startSession d .setup o).map fun book => (s.withBook book).leave pid
  | .passwordLock cookie r => s.lock pid (.passwordSession cookie r)
  | .passwordSession cookie r =>
    let found := s.book.currentSession d cookie o
    if found.2.isSome then some ((s.withBook found.1).goto pid (.passwordAllow r))
    else some ((s.withBook found.1).leave pid)
  | .passwordAllow r =>
    if s.allows r.client o.now then
      some ((s.called o.now (.allow r.client)).goto pid (.passwordVerify r))
    else some ((s.called o.now (.allow r.client)).leave pid)
  | .passwordVerify r =>
    if s.book.verifyPanelPassword verify r.current = some true then
      some (s.goto pid (.passwordSucceed r))
    else some (s.leave pid)
  | .passwordSucceed r =>
    let told := s.called o.now (.succeed r.client)
    if minPanelPassword ≤ r.password.length ∧ r.password = r.confirm then
      some (told.goto pid (.passwordSet r))
    else some (told.leave pid)
  | .passwordSet _ =>
    if o.saved then
      some ((s.withBook (s.book.setPanelPassword o.verifier)).goto pid .passwordDestroy)
    else some (s.leave pid)
  | .passwordDestroy => some ((s.withBook s.book.destroyAllSessions).leave pid)

/-- A request comes in, or one that is there takes a turn. -/
inductive Act (Verifier : Type) where
  | start (pid : Nat) (p : Point)
  | turn (pid : Nat) (o : Turn Verifier)

/-- One act; the clock does not go backwards. -/
def act (s : AuthState Verifier) : Act Verifier → Option (AuthState Verifier)
  | .start pid p =>
    match s.points pid with
    | .done => if p.first then some (s.goto pid p) else none
    | _ => none
  | .turn pid o =>
    if s.clock ≤ o.now ∧ o.now ≤ o.later then
      (s.advance d verify pid o (s.points pid)).map fun s => { s with clock := o.later }
    else none

/-- A run, from what was stored when the panel started. -/
def run (loaded : Option Verifier) : List (Act Verifier) → Option (AuthState Verifier)
  | [] => some { book := { stored := loaded.toList } }
  | a :: past => (run loaded past).bind fun s => s.act d verify a

end AuthState

/-! ## The book is kept -/

section Kept

variable {Verifier : Type} {d : Digest} {verify : Verifier → String → Option Bool}

/-- How a session that is there came about and was used, by this time. -/
structure Live (d : Digest) (b : Book Verifier) (time : Nat) (birth : Birth) (k : String)
    (sess : Session) : Prop where
  named : birth.token ≠ ""
  key : d.sessionKey birth.token = k
  created : sess.created = birth.time
  before : birth.time ≤ time
  standing : birth.token ∉ b.ended
  used : (birth.token, sess.lastSeen) ∈ b.uses
  last : ∀ u, (birth.token, u) ∈ b.uses → u ≤ sess.lastSeen
  current : ∀ n, b.changedTo = some n → ∃ v password, birth.origin = .login v password ∧ n ≤ v

/-- What holds of the book between turns. -/
structure Kept (d : Digest) (verify : Verifier → String → Option Bool) (b : Book Verifier)
    (time : Nat) : Prop where
  size : b.sessions.size ≤ maxSessions
  live : ∀ k sess, b.sessions.get k = some sess → ∃ birth ∈ b.born, Live d b time birth k sess
  uses : ∀ use ∈ b.uses, use.2 ≤ time
  verified : ∀ birth ∈ b.born, ∀ v password, birth.origin = .login v password →
    ∃ w, b.stored[v]? = some w ∧ verify w password = some true
  changed : ∀ n, b.changedTo = some n → n < b.stored.length

variable {b : Book Verifier} {time : Nat}

theorem Kept.keys (h : Kept d verify b time) : ∀ k, b.sessions.get k ≠ none → k ≠ "" := by
  intro k hk
  obtain ⟨sess, hsess⟩ := Option.ne_none_iff_exists'.mp hk
  obtain ⟨birth, _, hlive⟩ := h.live k sess hsess
  rw [← hlive.key]
  exact d.ne_empty _

theorem Kept.later (h : Kept d verify b time) {time' : Nat} (hle : time ≤ time') :
    Kept d verify b time' := by
  refine { h with live := ?_, uses := ?_ }
  · intro k sess hsess
    obtain ⟨birth, hbirth, hlive⟩ := h.live k sess hsess
    exact ⟨birth, hbirth, { hlive with before := Nat.le_trans hlive.before hle }⟩
  · intro use huse
    exact Nat.le_trans (h.uses use huse) hle

/-- Another token was used. -/
theorem Live.beside {b' : Book Verifier} {birth : Birth} {k token : String} {sess : Session}
    {later : Nat} (h : Live d b time birth k sess) (hne : birth.token ≠ token)
    (hle : time ≤ later) (hended : b'.ended = b.ended)
    (huses : b'.uses = (token, later) :: b.uses) (hchanged : b'.changedTo = b.changedTo) :
    Live d b' later birth k sess where
  named := h.named
  key := h.key
  created := h.created
  before := Nat.le_trans h.before hle
  standing := hended ▸ h.standing
  used := huses ▸ List.mem_cons_of_mem _ h.used
  last u hu := by
    rcases List.mem_cons.mp (huses ▸ hu) with heq | hu
    · exact absurd (congrArg Prod.fst heq) hne
    · exact h.last u hu
  current := hchanged ▸ h.current

/-- Nothing that was used was used later than a turn. -/
theorem Kept.use (h : Kept d verify b time) {later : Nat} (hle : time ≤ later) (token : String) :
    ∀ use ∈ (token, later) :: b.uses, use.2 ≤ later := by
  intro use huse
  rcases List.mem_cons.mp huse with rfl | huse
  · exact Nat.le_refl _
  · exact Nat.le_trans (h.uses use huse) hle

/-- Dropping sessions keeps the book. -/
theorem Kept.drop (h : Kept d verify b time) {t : SessionStore} (hsize : t.size ≤ b.sessions.size)
    (hsub : ∀ k sess, t.get k = some sess → b.sessions.get k = some sess) :
    Kept d verify { b with sessions := t } time := by
  refine ⟨Nat.le_trans hsize h.size, ?_, h.uses, h.verified, h.changed⟩
  intro k sess hsess
  obtain ⟨birth, hbirth, hlive⟩ := h.live k sess (hsub k sess hsess)
  exact ⟨birth, hbirth, { hlive with }⟩

theorem prune_sub (t : SessionStore) (first : Nat) :
    ∀ k sess, (pruneSessions t first).get k = some sess → t.get k = some sess :=
  fun _ _ h => (get_pruneSessions.mp h).1

/-- Using a session keeps the book. -/
theorem Kept.currentSession (h : Kept d verify b time) (cookie : Option String)
    {o : Turn Verifier} (hnow : time ≤ o.now) (hlater : o.now ≤ o.later) :
    Kept d verify (b.currentSession d cookie o).1 o.later := by
  have hle : time ≤ o.later := Nat.le_trans hnow hlater
  cases cookie with
  | none => exact h.later hle
  | some token =>
    unfold Book.currentSession
    simp only
    cases hfound : (lookupSession d b.sessions token o.now o.later).2 with
    | none =>
      simp only
      refine (h.drop size_lookup_le ?_).later hle
      intro k sess hsess
      rcases lookup_none hfound with heq | heq
      · rw [heq] at hsess
        exact hsess
      · rw [heq] at hsess
        exact prune_sub _ _ k sess hsess
    | some sess =>
      simp only
      obtain ⟨_, old, hold, _, _, hstore⟩ := lookup_some hfound
      refine ⟨Nat.le_trans size_lookup_le h.size, ?_, ?_, h.verified, h.changed⟩
      · intro k found hget
        simp only [hstore, Table.get_put] at hget
        split_ifs at hget with hk
        · cases hget
          obtain ⟨birth, hbirth, hlive⟩ := h.live _ old hold
          have htoken : birth.token = token := d.injective hlive.key
          refine ⟨birth, hbirth, hlive.named, hk ▸ hlive.key, hlive.created,
            Nat.le_trans hlive.before hle, hlive.standing, ?_, ?_, hlive.current⟩
          · rw [htoken]
            exact List.mem_cons_self
          · exact fun u hu => h.use hle token _ hu
        · obtain ⟨birth, hbirth, hlive⟩ := h.live k found (prune_sub _ _ k found hget)
          exact ⟨birth, hbirth, hlive.beside (fun heq => hk (by rw [← hlive.key, heq])) hle
            rfl rfl rfl⟩
      · exact h.use hle token

/-- A new session keeps the book, if its origin is true. -/
theorem Kept.startSession (h : Kept d verify b time) {origin : Origin} {o : Turn Verifier}
    {b' : Book Verifier} (hstart : b.startSession d origin o = some b') (hnow : time ≤ o.now)
    (hlater : o.now ≤ o.later)
    (hverified : ∀ v password, origin = .login v password →
      ∃ w, b.stored[v]? = some w ∧ verify w password = some true)
    (hcurrent : ∀ n, b.changedTo = some n → ∃ v password, origin = .login v password ∧ n ≤ v) :
    Kept d verify b' o.later := by
  have hle : time ≤ o.later := Nat.le_trans hnow hlater
  unfold Book.startSession at hstart
  split_ifs at hstart with hdrawn hfresh
  · cases hstart
    exact h.later hle
  · cases hstart
    obtain ⟨hnamed, hnew, hunended⟩ := hfresh
    obtain ⟨kept, hcreate, hsub, hsize, _⟩ :=
      create_spec h.keys d o.token o.csrf o.now o.later
    refine ⟨?_, ?_, ?_, ?_, h.changed⟩
    · have hput : (createSession d b.sessions o.token o.csrf o.now o.later).size ≤ kept.size + 1 := by
        rw [hcreate]
        exact Table.size_put_le
      have := hsize h.size
      simp only
      omega
    · intro k sess hget
      simp only [hcreate, Table.get_put] at hget
      split_ifs at hget with hk
      · cases hget
        exact ⟨⟨o.token, o.later, origin⟩, List.mem_cons_self, hnamed, hk.symm, rfl,
          Nat.le_refl _, hunended, List.mem_cons_self, fun u hu => h.use hle o.token _ hu, hcurrent⟩
      · obtain ⟨birth, hbirth, hlive⟩ := h.live k sess (prune_sub _ _ k sess (hsub k sess hget))
        exact ⟨birth, List.mem_cons_of_mem _ hbirth,
          hlive.beside (fun heq => hk (by rw [← hlive.key, heq])) hle rfl rfl rfl⟩
    · exact h.use hle o.token
    · intro birth hbirth v password horigin
      rcases List.mem_cons.mp hbirth with rfl | hbirth
      · exact hverified v password horigin
      · exact h.verified birth hbirth v password horigin

theorem Kept.destroyCookie (h : Kept d verify b time) (cookie : Option String) :
    Kept d verify (b.destroyCookie d cookie) time := by
  cases cookie with
  | none => exact h
  | some token =>
    refine ⟨?_, ?_, h.uses, h.verified, h.changed⟩
    · show (destroySession d b.sessions token).size ≤ maxSessions
      unfold destroySession
      split_ifs
      · exact h.size
      · exact Nat.le_trans (Table.size_keep_le _) h.size
    · intro k sess hget
      have hkept : b.sessions.get k = some sess ∧ (token = "" ∨ k ≠ d.sessionKey token) := by
        simp only [Book.destroyCookie] at hget
        unfold destroySession at hget
        split_ifs at hget with hempty
        · exact ⟨hget, .inl hempty⟩
        · rw [Table.get_erase] at hget
          split_ifs at hget with hk
          exact ⟨hget, .inr hk⟩
      obtain ⟨birth, hbirth, hlive⟩ := h.live k sess hkept.1
      refine ⟨birth, hbirth, { hlive with standing := ?_ }⟩
      intro hended
      rcases List.mem_cons.mp hended with heq | hended
      · rcases hkept.2 with hempty | hk
        · exact hlive.named (heq.trans hempty)
        · exact hk (by rw [← hlive.key, heq])
      · exact hlive.standing hended

theorem Kept.destroyAllSessions (h : Kept d verify b time) (hne : b.stored ≠ []) :
    Kept d verify b.destroyAllSessions time := by
  refine ⟨Nat.zero_le _, ?_, h.uses, h.verified, ?_⟩
  · intro k sess hget
    cases hget
  · intro n hn
    cases hn
    show b.stored.length - 1 < b.stored.length
    have := List.length_pos_iff.mpr hne
    omega

theorem Kept.setPanelPassword (h : Kept d verify b time) (w : Verifier) :
    Kept d verify (b.setPanelPassword w) time := by
  refine ⟨h.size, ?_, h.uses, ?_, ?_⟩
  · intro k sess hget
    obtain ⟨birth, hbirth, hlive⟩ := h.live k sess hget
    exact ⟨birth, hbirth, { hlive with }⟩
  · intro birth hbirth v password horigin
    obtain ⟨w', hw', hverify⟩ := h.verified birth hbirth v password horigin
    refine ⟨w', ?_, hverify⟩
    show (b.stored ++ [w])[v]? = some w'
    rw [List.getElem?_append_left (List.getElem?_eq_some_iff.mp hw').1]
    exact hw'
  · intro n hn
    show n < (b.stored ++ [w]).length
    have := h.changed n hn
    simp
    omega

end Kept

/-! ## Turns keep the book -/

section Turns

variable {Verifier : Type} {d : Digest} {verify : Verifier → String → Option Bool}

/-- What a request that holds `authMu` has made sure of. -/
def PointOk (verify : Verifier → String → Option Bool) (b : Book Verifier) : Point → Prop
  | .loginSucceed r version | .loginCreate r version =>
    b.stored.length = version + 1 ∧
      ∃ w, b.stored[version]? = some w ∧ verify w r.password = some true
  | .setupSet _ => b.stored = []
  | .setupCreate => b.changedTo = none
  | .passwordDestroy => b.stored ≠ []
  | _ => True

variable {p : Point}

theorem pointOk_outside {b : Book Verifier} (h : p.inside = false) : PointOk verify b p := by
  cases p with
  | loginSucceed | loginCreate | setupSet | setupCreate | passwordDestroy => cases h
  | _ => trivial

theorem pointOk_congr {b b' : Book Verifier} (hstored : b'.stored = b.stored)
    (hchanged : b'.changedTo = b.changedTo) (h : PointOk verify b p) : PointOk verify b' p := by
  cases p <;> simp only [PointOk, hstored, hchanged] at h ⊢ <;> exact h

/-- What holds between turns. -/
structure Orderly (d : Digest) (verify : Verifier → String → Option Bool)
    (s : AuthState Verifier) : Prop where
  kept : Kept d verify s.book s.clock
  holder : ∀ pid, (s.points pid).inside = true → s.authMu = some pid
  points : ∀ pid, PointOk verify s.book (s.points pid)

variable {s s' : AuthState Verifier} {pid time : Nat} {next : Point}

/-- A turn of a request that no other can be holding the lock against. -/
theorem Orderly.alone (h : Orderly d verify s) (halone : ∀ q, q ≠ pid → s.authMu ≠ some q)
    (hpoints : s'.points = Function.update s.points pid next)
    (hauth : next.inside = true → s'.authMu = some pid) (hkept : Kept d verify s'.book time)
    (hok : PointOk verify s'.book next) :
    Orderly d verify { s' with clock := time } := by
  have houtside : ∀ q, q ≠ pid → (s.points q).inside = false := by
    intro q hq
    cases hin : (s.points q).inside with
    | false => rfl
    | true => exact absurd (h.holder q hin) (halone q hq)
  refine ⟨hkept, ?_, ?_⟩
  · intro q hin
    simp only [hpoints] at hin
    by_cases hq : q = pid
    · subst hq
      rw [Function.update_self] at hin
      exact hauth hin
    · rw [Function.update_of_ne hq, houtside q hq] at hin
      cases hin
  · intro q
    simp only [hpoints]
    by_cases hq : q = pid
    · subst hq
      rw [Function.update_self]
      exact hok
    · rw [Function.update_of_ne hq]
      exact pointOk_outside (houtside q hq)

/-- A turn of a request that does not hold the lock, and leaves the password. -/
theorem Orderly.beside (h : Orderly d verify s) {book : Book Verifier}
    (hnext : next.inside = false) (hkept : Kept d verify book time)
    (hstored : book.stored = s.book.stored) (hchanged : book.changedTo = s.book.changedTo) :
    Orderly d verify { (s.withBook book).goto pid next with clock := time } := by
  refine ⟨hkept, ?_, ?_⟩
  · intro q hin
    by_cases hq : q = pid
    · subst hq
      simp [AuthState.goto, hnext] at hin
    · simp only [AuthState.goto, AuthState.withBook, Function.update_of_ne hq] at hin
      exact h.holder q hin
  · intro q
    by_cases hq : q = pid
    · subst hq
      simp only [AuthState.goto, Function.update_self]
      exact pointOk_outside hnext
    · simp only [AuthState.goto, AuthState.withBook, Function.update_of_ne hq]
      exact pointOk_congr hstored hchanged (h.points q)

theorem currentSession_frame (b : Book Verifier) (cookie : Option String) (o : Turn Verifier) :
    (b.currentSession d cookie o).1.stored = b.stored ∧
      (b.currentSession d cookie o).1.changedTo = b.changedTo := by
  unfold Book.currentSession
  cases cookie with
  | none => exact ⟨rfl, rfl⟩
  | some token =>
    simp only
    split <;> exact ⟨rfl, rfl⟩

theorem destroyCookie_frame (b : Book Verifier) (cookie : Option String) :
    (b.destroyCookie d cookie).stored = b.stored ∧
      (b.destroyCookie d cookie).changedTo = b.changedTo := by
  cases cookie <;> exact ⟨rfl, rfl⟩

/-- The verifier a successful verification was against is the newest. -/
theorem verified_newest {b : Book Verifier} {password : String}
    (h : b.verifyPanelPassword verify password = some true) :
    b.stored.length = b.stored.length - 1 + 1 ∧
      ∃ w, b.stored[b.stored.length - 1]? = some w ∧ verify w password = some true := by
  unfold Book.verifyPanelPassword Book.panel at h
  obtain ⟨w, hw, hverify⟩ := Option.bind_eq_some_iff.mp h
  rw [List.getLast?_eq_getElem?] at hw
  have hlength := (List.getElem?_eq_some_iff.mp hw).1
  exact ⟨by omega, w, hw, hverify⟩

/-- A turn of a request that holds the lock. -/
theorem Orderly.holding (h : Orderly d verify s) (hp : s.points pid = p) (hin : p.inside = true)
    (hpoints : s'.points = Function.update s.points pid next)
    (hauth : s'.authMu = s.authMu ∨ next.inside = false) (hkept : Kept d verify s'.book time)
    (hok : PointOk verify s'.book next) :
    Orderly d verify { s' with clock := time } := by
  have hheld := h.holder pid (hp ▸ hin)
  refine h.alone ?_ hpoints ?_ hkept hok
  · intro q hq hsome
    rw [hheld] at hsome
    exact hq (Option.some.inj hsome).symm
  · intro hnext
    rcases hauth with heq | hout
    · rw [heq, hheld]
    · rw [hnext] at hout
      cases hout

/-- A request that waited for the lock has it. -/
theorem Orderly.locked (h : Orderly d verify s) (hle : s.clock ≤ time)
    (hlock : s.lock pid next = some s') (hok : PointOk verify s.book next) :
    Orderly d verify { s' with clock := time } := by
  unfold AuthState.lock at hlock
  split_ifs at hlock with hfree
  cases hlock
  refine h.alone ?_ rfl (fun _ => rfl) (h.kept.later hle) hok
  intro q _ hsome
  rw [hfree] at hsome
  cases hsome

/-- A request that holds the lock goes on if a test passes, and returns if not. -/
theorem Orderly.branch (h : Orderly d verify s) (hp : s.points pid = p) (hin : p.inside = true)
    {c : Prop} [Decidable c] {told : AuthState Verifier}
    (hstep : (if c then some (told.goto pid next) else some (told.leave pid)) = some s')
    (hpoints : told.points = s.points) (hauth : told.authMu = s.authMu)
    (hkept : Kept d verify told.book time) (hok : c → PointOk verify told.book next) :
    Orderly d verify { s' with clock := time } := by
  have hgoto : ∀ q, (told.goto pid q).points = Function.update s.points pid q := by
    intro q
    rw [← hpoints]
    rfl
  split_ifs at hstep with hc
  · cases hstep
    exact h.holding hp hin (hgoto next) (.inl hauth) hkept (hok hc)
  · cases hstep
    exact h.holding hp hin (hgoto .done) (.inr rfl) hkept trivial

/-- Every turn leaves the state in order. -/
theorem orderly_advance (h : Orderly d verify s) {o : Turn Verifier} (hnow : s.clock ≤ o.now)
    (hlater : o.now ≤ o.later) (hstep : s.advance d verify pid o (s.points pid) = some s') :
    Orderly d verify { s' with clock := o.later } := by
  have hle : s.clock ≤ o.later := Nat.le_trans hnow hlater
  have hkept := h.kept.later hle
  have hpoint := h.points pid
  cases hp : s.points pid <;> rw [hp] at hstep hpoint
  case done => cases hstep
  case gate r =>
    cases hstep
    exact h.beside (by split_ifs <;> rfl) hkept rfl rfl
  case loginForm cookie =>
    cases hstep
    exact h.beside (by split_ifs <;> rfl) hkept rfl rfl
  case gateSession r =>
    cases hstep
    obtain ⟨hstored, hchanged⟩ := currentSession_frame (d := d) s.book r.cookie o
    refine h.beside ?_ (h.kept.currentSession r.cookie hnow hlater) hstored hchanged
    split
    · rfl
    · split_ifs
      · rfl
      · split <;> rfl
  case loginFormSession cookie =>
    cases hstep
    obtain ⟨hstored, hchanged⟩ := currentSession_frame (d := d) s.book cookie o
    exact h.beside rfl (h.kept.currentSession cookie hnow hlater) hstored hchanged
  case logout cookie =>
    cases hstep
    obtain ⟨hstored, hchanged⟩ := destroyCookie_frame (d := d) s.book cookie
    exact h.beside rfl ((h.kept.destroyCookie cookie).later hle) hstored hchanged
  case loginLock r => exact h.locked hle hstep trivial
  case setupLock r => exact h.locked hle hstep trivial
  case passwordLock cookie r => exact h.locked hle hstep trivial
  case loginCheck r => exact h.branch hp rfl hstep rfl rfl hkept fun _ => trivial
  case loginAllow r => exact h.branch hp rfl hstep rfl rfl hkept fun _ => trivial
  case passwordAllow r => exact h.branch hp rfl hstep rfl rfl hkept fun _ => trivial
  case loginVerify r => exact h.branch hp rfl hstep rfl rfl hkept verified_newest
  case loginSucceed r version =>
    cases hstep
    exact h.holding hp rfl rfl (.inl rfl) hkept hpoint
  case loginCreate r version =>
    obtain ⟨book, hbook, rfl⟩ := Option.map_eq_some_iff.mp hstep
    obtain ⟨hlength, hverified⟩ := hpoint
    refine h.holding hp rfl rfl (.inr rfl) ?_ trivial
    refine h.kept.startSession hbook hnow hlater ?_ ?_
    · intro v password horigin
      cases horigin
      exact hverified
    · intro n hn
      have := h.kept.changed n hn
      exact ⟨version, r.password, rfl, by omega⟩
  case setupCheck r =>
    exact h.branch hp rfl hstep rfl rfl hkept fun hfirst =>
      List.getLast?_eq_none_iff.mp (Option.isNone_iff_eq_none.mp hfirst.1)
  case setupSet r =>
    simp only [AuthState.advance] at hstep
    split_ifs at hstep with hsaved
    · cases hstep
      refine h.holding hp rfl rfl (.inl rfl) (hkept.setPanelPassword o.verifier) ?_
      show s.book.changedTo = none
      cases hchanged : s.book.changedTo with
      | none => rfl
      | some n =>
        have := h.kept.changed n hchanged
        have hempty : s.book.stored = [] := hpoint
        simp [hempty] at this
    · cases hstep
      exact h.holding hp rfl rfl (.inr rfl) hkept trivial
  case setupCreate =>
    obtain ⟨book, hbook, rfl⟩ := Option.map_eq_some_iff.mp hstep
    have hnone : s.book.changedTo = none := hpoint
    refine h.holding hp rfl rfl (.inr rfl) ?_ trivial
    refine h.kept.startSession hbook hnow hlater (by simp) ?_
    intro n hn
    rw [hnone] at hn
    cases hn
  case passwordSession cookie r =>
    exact h.branch hp rfl hstep rfl rfl (h.kept.currentSession cookie hnow hlater) fun _ => trivial
  case passwordVerify r => exact h.branch hp rfl hstep rfl rfl hkept fun _ => trivial
  case passwordSucceed r => exact h.branch hp rfl hstep rfl rfl hkept fun _ => trivial
  case passwordSet r =>
    simp only [AuthState.advance] at hstep
    split_ifs at hstep with hsaved
    · cases hstep
      refine h.holding hp rfl rfl (.inl rfl) (hkept.setPanelPassword o.verifier) ?_
      show s.book.stored ++ [o.verifier] ≠ []
      simp
    · cases hstep
      exact h.holding hp rfl rfl (.inr rfl) hkept trivial
  case passwordDestroy =>
    cases hstep
    exact h.holding hp rfl rfl (.inr rfl) (hkept.destroyAllSessions hpoint) trivial

theorem orderly_act (h : Orderly d verify s) {a : AuthState.Act Verifier}
    (hact : s.act d verify a = some s') : Orderly d verify s' := by
  cases a with
  | start pid p =>
    simp only [AuthState.act] at hact
    split at hact
    next hdone =>
      split_ifs at hact with hfirst
      cases hact
      have hout : p.inside = false := by
        cases p <;> first | rfl | cases hfirst
      exact h.beside hout h.kept rfl rfl
    next => cases hact
  | turn pid o =>
    simp only [AuthState.act] at hact
    split_ifs at hact with htime
    obtain ⟨s₁, hstep, hs'⟩ := Option.map_eq_some_iff.mp hact
    subst hs'
    exact orderly_advance h htime.1 htime.2 hstep

/-- Every run leaves the state in order. -/
theorem orderly_run {loaded : Option Verifier} {acts : List (AuthState.Act Verifier)} :
    ∀ {s}, AuthState.run d verify loaded acts = some s → Orderly d verify s := by
  induction acts with
  | nil =>
    intro s h
    cases h
    refine ⟨⟨Nat.zero_le _, ?_, by simp, by simp, by simp⟩, ?_, ?_⟩
    · intro k sess hget
      cases hget
    · intro pid hin
      cases hin
    · intro pid
      trivial
  | cons a past ih =>
    intro s h
    obtain ⟨s₀, hpast, hact⟩ := Option.bind_eq_some_iff.mp h
    exact orderly_act (ih hpast) hact

/-- **A change of the password ends every session of the old one.**  After any
run: a token that is accepted was given out at most `sessionLifetime` ago, was
used within `sessionIdle`, has not been destroyed, and if a change of the
password has finished it was given out by a login that verified the password of
the last change or a later one.  There are at most `maxSessions` sessions; the
use a session remembers is its last, and the one that makes room for another was
used least recently. -/
theorem accepted_sessions {loaded : Option Verifier} {acts : List (AuthState.Act Verifier)}
    (hrun : AuthState.run d verify loaded acts = some s) :
    (∀ token now later sess, s.clock ≤ now →
      (lookupSession d s.book.sessions token now later).2 = some sess →
      ∃ birth ∈ s.book.born, birth.token = token ∧
        birth.time ≤ now ∧ now ≤ birth.time + sessionLifetime ∧
        (∃ used, (token, used) ∈ s.book.uses ∧ used ≤ now ∧ now ≤ used + sessionIdle) ∧
        token ∉ s.book.ended ∧
        ∀ n, s.book.changedTo = some n → ∃ version password w,
          birth.origin = .login version password ∧ n ≤ version ∧
            s.book.stored[version]? = some w ∧ verify w password = some true) ∧
    s.book.sessions.size ≤ maxSessions ∧
    (∀ k sess, s.book.sessions.get k = some sess → ∃ birth ∈ s.book.born,
      d.sessionKey birth.token = k ∧ (birth.token, sess.lastSeen) ∈ s.book.uses ∧
        ∀ used, (birth.token, used) ∈ s.book.uses → used ≤ sess.lastSeen) ∧
    ∀ token csrf now later, ∃ kept : SessionStore,
      createSession d s.book.sessions token csrf now later =
          kept.put (d.sessionKey token) ⟨csrf, later, later⟩ ∧
        (kept = pruneSessions s.book.sessions now ∨
          maxSessions ≤ (pruneSessions s.book.sessions now).size ∧
            ∃ k sess, (pruneSessions s.book.sessions now).get k = some sess ∧
              kept = (pruneSessions s.book.sessions now).erase k ∧
              ∀ k' sess', (pruneSessions s.book.sessions now).get k' = some sess' →
                sess.lastSeen ≤ sess'.lastSeen) := by
  have h := (orderly_run hrun).kept
  refine ⟨?_, h.size, ?_, ?_⟩
  · intro token now later sess hnow hfound
    obtain ⟨_, old, hold, halive, _, _⟩ := lookup_some hfound
    obtain ⟨birth, hbirth, hlive⟩ := h.live _ old hold
    obtain ⟨hyoung, hrecent⟩ := not_expired halive
    have htoken : birth.token = token := d.injective hlive.key
    have hused := h.uses _ hlive.used
    rw [hlive.created] at hyoung
    refine ⟨birth, hbirth, htoken, Nat.le_trans hlive.before hnow, hyoung,
      ⟨old.lastSeen, htoken ▸ hlive.used, Nat.le_trans hused hnow, hrecent⟩,
      htoken ▸ hlive.standing, ?_⟩
    intro n hn
    obtain ⟨version, password, horigin, hle⟩ := hlive.current n hn
    obtain ⟨w, hw, hverify⟩ := h.verified birth hbirth version password horigin
    exact ⟨version, password, w, horigin, hle, hw, hverify⟩
  · intro k sess hget
    obtain ⟨birth, hbirth, hlive⟩ := h.live k sess hget
    exact ⟨birth, hbirth, hlive.key, hlive.used, hlive.last⟩
  · intro token csrf now later
    obtain ⟨kept, hcreate, _, _, hwhich⟩ := create_spec h.keys d token csrf now later
    exact ⟨kept, hcreate, hwhich⟩

/-- **What a request checked is still so when it acts**, in every run.  No two
requests hold `authMu`; a setup stores a password only where there is none; a
login starts a session with the password that is stored then; and every session
is that of the setup or of a login whose password was verified. -/
theorem authMu_guards {loaded : Option Verifier} {acts : List (AuthState.Act Verifier)}
    (hrun : AuthState.run d verify loaded acts = some s) :
    (∀ p q, (s.points p).inside = true → (s.points q).inside = true → p = q) ∧
    (∀ pid r, s.points pid = .setupSet r → s.book.panel = none) ∧
    (∀ pid r version, s.points pid = .loginCreate r version →
      ∃ w, s.book.panel = some w ∧ verify w r.password = some true) ∧
    ∀ k sess, s.book.sessions.get k = some sess → ∃ birth ∈ s.book.born,
      d.sessionKey birth.token = k ∧ (birth.origin = .setup ∨ ∃ version password w,
        birth.origin = .login version password ∧ s.book.stored[version]? = some w ∧
          verify w password = some true) := by
  have h := orderly_run hrun
  refine ⟨?_, ?_, ?_, ?_⟩
  · intro p q hp hq
    exact Option.some.inj ((h.holder p hp).symm.trans (h.holder q hq))
  · intro pid r hpoint
    have hempty := h.points pid
    rw [hpoint] at hempty
    exact List.getLast?_eq_none_iff.mpr hempty
  · intro pid r version hpoint
    have hpid := h.points pid
    rw [hpoint] at hpid
    obtain ⟨hlast, w, hw, hverify⟩ := hpid
    refine ⟨w, ?_, hverify⟩
    rw [Book.panel, List.getLast?_eq_getElem?, hlast]
    exact hw
  · intro k sess hsess
    obtain ⟨birth, hbirth, hlive⟩ := h.kept.live k sess hsess
    refine ⟨birth, hbirth, hlive.key, ?_⟩
    cases horigin : birth.origin with
    | setup => exact .inl rfl
    | login version password =>
      obtain ⟨w, hw, hverify⟩ := h.kept.verified birth hbirth version password horigin
      exact .inr ⟨version, password, w, rfl, hw, hverify⟩

end Turns

/-! ## A run -/

/-- A digest for trying things out. -/
def plainDigest : Digest where
  sessionKey token := "#" ++ token
  injective := by
    intro a b h
    have hlist := congrArg String.toList h
    simp only [String.toList_append, List.append_cancel_left_eq] at hlist
    exact String.toList_inj.mp hlist
  ne_empty := by
    intro token h
    have hlist := congrArg String.toList h
    simp [String.toList_append] at hlist

/-- The text itself as its verifier. -/
def plainVerify (stored plaintext : String) : Option Bool := some (stored == plaintext)

/-- The owner sets a password, changes it, and signs in with the new one. -/
def changeAndSignIn : List (AuthState.Act String) :=
  let turn (pid time : Nat) : AuthState.Act String :=
    .turn pid ⟨time * second, time * second, "", "", true, true, "correct horse"⟩
  let draw (pid time : Nat) (token csrf : String) : AuthState.Act String :=
    .turn pid ⟨time * second, time * second, token, csrf, true, true, ""⟩
  List.reverse
    [.start 1 (.setupLock ⟨some "f", "f", "old words", "old words"⟩), turn 1 1, turn 1 1,
      .turn 1 ⟨second, 2 * second, "", "", true, true, "old words"⟩, draw 1 3 "first" "c",
      .start 1 (.gate ⟨some "first", true, "c",
        .password ⟨"10.42.0.7", "old words", "correct horse", "correct horse"⟩⟩),
      turn 1 10, turn 1 10, turn 1 10, turn 1 11, turn 1 11, turn 1 11, turn 1 12, turn 1 12,
      turn 1 13,
      .start 2 (.loginLock ⟨some "g", "g", "10.42.0.7", "correct horse"⟩), turn 2 20, turn 2 20,
      turn 2 21, turn 2 22, turn 2 22, draw 2 23 "second" "e"]

theorem changeAndSignIn_accepted : ∃ s sess,
    AuthState.run plainDigest plainVerify none changeAndSignIn = some s ∧
      s.book.changedTo = some 1 ∧
      (lookupSession plainDigest s.book.sessions "second" (30 * second) (30 * second)).2 =
        some sess ∧
      ∃ version password w, 1 ≤ version ∧ s.book.stored[version]? = some w ∧
        plainVerify w password = some true := by
  have hrun : (AuthState.run plainDigest plainVerify none changeAndSignIn).any (fun s =>
      decide (s.clock ≤ 30 * second) && decide (s.book.changedTo = some 1) &&
        (lookupSession plainDigest s.book.sessions "second" (30 * second) (30 * second)).2.isSome) =
      true := by decide
  obtain ⟨s, hs, htest⟩ := (Option.any_eq_true _ _).mp hrun
  simp only [Bool.and_eq_true, decide_eq_true_eq] at htest
  obtain ⟨⟨hclock, hchanged⟩, hfound⟩ := htest
  obtain ⟨sess, hsess⟩ := Option.isSome_iff_exists.mp hfound
  obtain ⟨birth, _, _, _, _, _, _, hnew⟩ :=
    (accepted_sessions hs).1 "second" (30 * second) (30 * second) sess hclock hsess
  obtain ⟨version, password, w, _, hle, hw, hverify⟩ := hnew 1 hchanged
  exact ⟨s, sess, hs, hchanged, hsess, version, password, w, hle, hw, hverify⟩

theorem changeAndSignIn_guarded : ∃ s,
    AuthState.run plainDigest plainVerify none changeAndSignIn = some s ∧
      ∀ p q, (s.points p).inside = true → (s.points q).inside = true → p = q := by
  have hrun : (AuthState.run plainDigest plainVerify none changeAndSignIn).isSome = true := by
    decide
  obtain ⟨s, hs⟩ := Option.isSome_iff_exists.mp hrun
  exact ⟨s, hs, (authMu_guards hs).1⟩

end Caspian.Panel
