import MockAgents.ForStd.GoMap
import MockAgents.ForStd.Runes
import MockAgents.ForStd.Trace
import MockAgents.Tenancy.Store

/-!
# Single sign-on

The OIDC callback with the users and sessions in the store. A login looks the user up, creates
it if there is none, and creates a session: three calls of the store, between which other
callbacks run. A callback that has found no user, while another one of the same person creates
it, cannot create it again: it answers with a server error. In every run in which a user is
created only while there is none, all callbacks end with a session of the one user.

The random bytes of a user id and the hash of the random session token are arguments.
-/

namespace MockAgents

open Bytes (ofString)

structure User where
  id : Bytes
  email : Bytes
  tenantID : Bytes
  role : Tenancy.Role
  deriving DecidableEq

/-- A row of `sessions`, without its times. -/
structure SessionRow where
  tokenHash : Bytes
  userID : Bytes
  tenantID : Bytes
  role : Tenancy.Role
  deriving DecidableEq

/-- `SSOHandlers`. Start-up refuses a default role that may not be assigned. -/
structure SSOHandlers where
  domainMap : GoMap Bytes Bytes
  defaultRole : Tenancy.Role
  /-- The table of `strings.ToLower` above U+007F. -/
  lower : Nat → Nat
  assignable : defaultRole.isAssignableViaAPI = true

/-- What `Callback` reads of a request. -/
structure CallbackRequest where
  stateCookie : Option Bytes
  verifierCookie : Option Bytes
  state : Bytes
  code : Bytes
  /-- The email that `Exchange` returns for the code and the verifier; `none` is an error. -/
  exchange : Option Bytes

inductive CallbackAnswer where
  | refused (status : Nat) (error : String)
  | serverError
  | redirect (session : SessionRow)
  deriving DecidableEq

/-- What follows the last `@`. -/
def emailDomain (email : Bytes) : Bytes :=
  if email.contains 64 then (email.reverse.takeWhile (· ≠ 64)).reverse else []

/-- `Callback` up to its first call of the store: the email and its tenant. -/
def SSOHandlers.identify (h : SSOHandlers) (r : CallbackRequest) :
    Except CallbackAnswer (Bytes × Bytes) :=
  match r.stateCookie, r.verifierCookie with
  | some cookie, some _ =>
    if r.state = [] ∨ r.state ≠ cookie then .error (.refused 400 "state mismatch")
    else if r.code = [] then .error (.refused 400 "missing authorization code")
    else
      match r.exchange with
      | none => .error (.refused 401 "authentication failed")
      | some claimed =>
        let email := Strings.toLower h.lower (Bytes.trimSpace claimed)
        if email = [] then .error (.refused 401 "identity provider returned no email")
        else
          match h.domainMap.lookup (emailDomain email) with
          | none => .error (.refused 403 "email domain is not mapped to a tenant")
          | some tenantID => .ok (email, tenantID)
  | _, _ => .error (.refused 400 "missing login state; restart the flow")

theorem SSOHandlers.email_ne_of_identify {h : SSOHandlers} {r : CallbackRequest}
    {email tenantID : Bytes} (hok : h.identify r = .ok (email, tenantID)) : email ≠ [] := by
  revert hok
  fun_cases SSOHandlers.identify h r <;> intro hok <;>
    simp only [Except.ok.injEq, Prod.mk.injEq, reduceCtorEq] at hok
  obtain ⟨rfl, _⟩ := hok
  assumption

/-- Where a callback is: which call of the store comes next. -/
inductive CallbackPc where
  | lookup (email tenantID : Bytes)
  | create (email tenantID : Bytes)
  | mint (user : User)
  | done (answer : CallbackAnswer)
  deriving DecidableEq

def CallbackPc.isDone : CallbackPc → Bool
  | .done _ => true
  | _ => false

/-- The store and the callbacks. -/
structure Logins where
  tenants : List Bytes
  users : List User
  sessions : List SessionRow := []
  calls : List CallbackPc := []

inductive LoginEvent where
  | callback (r : CallbackRequest)
  /-- The next call of the store in a callback. -/
  | advance (i : Nat) (idBytes : Vector UInt8 8) (tokenHash : Bytes)

namespace Logins

def move (s : Logins) (i : Nat) (pc : CallbackPc) : Logins := { s with calls := s.calls.set i pc }

/-- `CreateUser`; `none` is an error. The id and the email are unique. -/
def createUser (s : Logins) (email tenantID : Bytes) (role : Tenancy.Role)
    (idBytes : Vector UInt8 8) : Option User :=
  let u : User := ⟨randID "usr" idBytes, email, tenantID, role⟩
  if email = [] ∨ role.isValid = false ∨ tenantID ∉ s.tenants then none
  -- `ErrConflict`
  else if s.users.any fun x => x.id = u.id ∨ x.email = email then none
  else some u

def advance (h : SSOHandlers) (s : Logins) (i : Nat) (idBytes : Vector UInt8 8)
    (tokenHash : Bytes) : CallbackPc → Option Logins
  | .lookup email tenantID =>
    match s.users.find? (·.email = email) with
    | some u => some (s.move i (.mint u))
    | none => some (s.move i (.create email tenantID))
  | .create email tenantID =>
    match s.createUser email tenantID h.defaultRole idBytes with
    | some u => some ({ s with users := s.users ++ [u] }.move i (.mint u))
    | none => some (s.move i (.done .serverError))
  | .mint u =>
    if s.sessions.any (·.tokenHash = tokenHash) then some (s.move i (.done .serverError))
    else
      let session : SessionRow := ⟨tokenHash, u.id, u.tenantID, u.role⟩
      some ({ s with sessions := s.sessions ++ [session] }.move i (.done (.redirect session)))
  | .done _ => none

def step (h : SSOHandlers) (s : Logins) : LoginEvent → Option Logins
  | .callback r =>
    let pc := match h.identify r with
      | .ok (email, tenantID) => .lookup email tenantID
      | .error answer => .done answer
    some { s with calls := s.calls ++ [pc] }
  | .advance i idBytes tokenHash => s.calls[i]?.bind (s.advance h i idBytes tokenHash)

/-- A callback of the person with this email, and random bytes that are new. -/
def samePerson (h : SSOHandlers) (email tenantID : Bytes) (s : Logins) : LoginEvent → Bool
  | .callback r => h.identify r = .ok (email, tenantID)
  | .advance _ idBytes tokenHash =>
    s.users.all (·.id ≠ randID "usr" idBytes) && s.sessions.all (·.tokenHash ≠ tokenHash)

/-- The condition on a step: a user is created only while there is none. -/
def createsFirst (s : Logins) : LoginEvent → Bool
  | .callback _ => true
  | .advance i _ _ =>
    match s.calls[i]? with
    | some (.create email _) => s.users.all (·.email ≠ email)
    | _ => true

/-! ## Every interleaving -/

variable {h : SSOHandlers} {email tenantID : Bytes} {s s' : Logins}

/-- A callback on its way to a session of a user with the email. -/
inductive OnItsWay (email tenantID : Bytes) (users : List User) (sessions : List SessionRow) :
    CallbackPc → Prop where
  | lookup : OnItsWay email tenantID users sessions (.lookup email tenantID)
  | create : OnItsWay email tenantID users sessions (.create email tenantID)
  | mint {u : User} (hu : u ∈ users) (hemail : u.email = email) :
      OnItsWay email tenantID users sessions (.mint u)
  | done {u : User} {x : SessionRow} (hu : u ∈ users) (hemail : u.email = email)
      (hx : x ∈ sessions) (hid : x.userID = u.id) :
      OnItsWay email tenantID users sessions (.done (.redirect x))

/-- The state between steps. -/
structure Sound (email tenantID : Bytes) (s : Logins) : Prop where
  tenant : tenantID ∈ s.tenants
  email_ne : s.calls ≠ [] → email ≠ []
  unique : (s.users.filter (·.email = email)).length ≤ 1
  calls : ∀ pc ∈ s.calls, OnItsWay email tenantID s.users s.sessions pc

/-- The tables grow and one call moves on. -/
theorem Sound.moved (hs : s.Sound email tenantID) {i : Nat} {pc : CallbackPc}
    (hi : i < s.calls.length) (htenants : s'.tenants = s.tenants) (husers : s.users ⊆ s'.users)
    (hsessions : s.sessions ⊆ s'.sessions) (hcalls : s'.calls = s.calls.set i pc)
    (hunique : (s'.users.filter (·.email = email)).length ≤ 1)
    (hpc : OnItsWay email tenantID s'.users s'.sessions pc) : s'.Sound email tenantID := by
  refine ⟨htenants ▸ hs.tenant, fun _ => hs.email_ne (List.ne_nil_of_length_pos (by omega)),
    hunique, fun pc' hpc' => ?_⟩
  rw [hcalls] at hpc'
  rcases List.mem_or_eq_of_mem_set hpc' with hold | rfl
  · cases hs.calls pc' hold with
    | lookup => exact .lookup
    | create => exact .create
    | mint hu hemail => exact .mint (husers hu) hemail
    | done hu hemail hx hid => exact .done (husers hu) hemail (hsessions hx) hid
  · exact hpc

theorem Sound.advance (hs : s.Sound email tenantID) {i : Nat} {idBytes : Vector UInt8 8}
    {tokenHash : Bytes} {pc : CallbackPc} (hpc : s.calls[i]? = some pc)
    (hnew : s.samePerson h email tenantID (.advance i idBytes tokenHash))
    (hfirst : s.createsFirst (.advance i idBytes tokenHash))
    (hstep : s.advance h i idBytes tokenHash pc = some s') : s'.Sound email tenantID := by
  have hi := (List.getElem?_eq_some_iff.mp hpc).1
  simp only [samePerson, Bool.and_eq_true, List.all_eq_true, decide_eq_true_eq] at hnew
  obtain ⟨hid, hhash⟩ := hnew
  cases hs.calls pc (List.mem_of_getElem? hpc) with
  | lookup =>
    simp only [Logins.advance] at hstep
    -- a user that was found has the email, otherwise one is to be created
    split at hstep <;> cases hstep
    · rename_i u hu
      refine hs.moved hi rfl (List.Subset.refl _) (List.Subset.refl _) rfl hs.unique ?_
      exact .mint (List.mem_of_find?_eq_some hu) (by simpa using List.find?_some hu)
    · exact hs.moved hi rfl (List.Subset.refl _) (List.Subset.refl _) rfl hs.unique .create
  | create =>
    have hnone : ∀ u ∈ s.users, u.email ≠ email := by simpa [createsFirst, hpc] using hfirst
    have hne := hs.email_ne (List.ne_nil_of_length_pos (by omega))
    have hvalid : h.defaultRole.isValid = true := by
      have hassignable := h.assignable
      rw [Tenancy.Role.isAssignableViaAPI, Bool.and_eq_true] at hassignable
      exact hassignable.1
    -- there is no row with the email, so the insert succeeds
    have hcreated : s.createUser email tenantID h.defaultRole idBytes =
        some ⟨randID "usr" idBytes, email, tenantID, h.defaultRole⟩ := by
      rw [createUser, if_neg (by simp [hne, hvalid, hs.tenant]), if_neg]
      simp only [List.any_eq_true, decide_eq_true_eq, not_exists, not_and, not_or]
      exact fun u hu => ⟨hid u hu, hnone u hu⟩
    simp only [Logins.advance, hcreated] at hstep
    cases hstep
    refine hs.moved hi rfl (List.subset_append_left _ _) (List.Subset.refl _) rfl ?_
      (.mint (by simp [move]) rfl)
    have hempty : s.users.filter (·.email = email) = [] := by simpa using hnone
    simp [move, List.filter_append, hempty]
  | mint hu hemail =>
    -- the token is new, so the session is stored
    rw [Logins.advance, if_neg (by simpa using hhash)] at hstep
    cases hstep
    exact hs.moved hi rfl (List.Subset.refl _) (List.subset_append_left _ _) rfl hs.unique
      (.done hu hemail (by simp [move]) rfl)
  | done => cases hstep

theorem Sound.step {ev : LoginEvent} (hs : s.Sound email tenantID)
    (hnew : s.samePerson h email tenantID ev) (hfirst : s.createsFirst ev)
    (hstep : s.step h ev = some s') : s'.Sound email tenantID := by
  cases ev with
  | callback r =>
    have hok : h.identify r = .ok (email, tenantID) := of_decide_eq_true hnew
    simp only [Logins.step, hok] at hstep
    cases hstep
    refine ⟨hs.tenant, fun _ => SSOHandlers.email_ne_of_identify hok, hs.unique, ?_⟩
    intro pc hpc
    rcases List.mem_append.mp hpc with hold | hpc
    · exact hs.calls pc hold
    · rw [List.mem_singleton.mp hpc]
      exact .lookup
  | advance i idBytes tokenHash =>
    obtain ⟨pc, hpc, hadvance⟩ := Option.bind_eq_some_iff.mp hstep
    exact hs.advance hpc hnew hfirst hadvance

/-- In every run of callbacks of one person in which a user is created only while there is none,
    a callback that has not ended can go on, and when all have ended, there is one user, and
    every callback has answered with a session of it. -/
theorem firstLogin_of_createsFirst {s₀ : Logins} {events : List LoginEvent}
    (htenant : tenantID ∈ s₀.tenants) (huser : ∀ u ∈ s₀.users, u.email ≠ email)
    (hcalls : s₀.calls = [])
    (hsteps : AllSteps (step h)
      (fun s ev => s.samePerson h email tenantID ev ∧ s.createsFirst ev) s₀ events)
    (hrun : runOption (step h) s₀ events = some s) :
    (∀ i pc, s.calls[i]? = some pc → pc.isDone = false → ∀ idBytes tokenHash,
      (s.step h (.advance i idBytes tokenHash)).isSome) ∧
    (s.calls ≠ [] → s.calls.all (·.isDone) = true →
      ∃ u, s.users.filter (·.email = email) = [u] ∧
        ∀ pc ∈ s.calls, ∃ x ∈ s.sessions, pc = .done (.redirect x) ∧ x.userID = u.id) := by
  have hinit : s₀.Sound email tenantID := by
    have hempty : s₀.users.filter (·.email = email) = [] := by simpa using huser
    exact ⟨htenant, fun hne => absurd hcalls hne, by simp [hempty], by simp [hcalls]⟩
  have hs : s.Sound email tenantID := runOption_inv_of_allSteps (step h) _
    (·.Sound email tenantID) (fun s ev s' hcond hstep hs => hs.step hcond.1 hcond.2 hstep)
    hsteps hrun hinit
  constructor
  · intro i pc hpc hgoing idBytes tokenHash
    cases pc with
    | done answer => cases hgoing
    | lookup | create | mint =>
      simp only [step, hpc, Option.bind_some, Logins.advance]
      split <;> rfl
  · intro hne hdone
    -- every callback has a session of a row with the email, and there is one such row
    have hsession : ∀ pc ∈ s.calls, ∃ u ∈ s.users.filter (·.email = email), ∃ x ∈ s.sessions,
        pc = .done (.redirect x) ∧ x.userID = u.id := by
      intro pc hpc
      have hended := List.all_eq_true.mp hdone pc hpc
      cases hs.calls pc hpc with
      | @done u x hu hemail hx hid =>
        exact ⟨u, List.mem_filter.mpr ⟨hu, by simpa using hemail⟩, x, hx, rfl, hid⟩
      | lookup | create | mint => cases hended
    obtain ⟨pc, hpc⟩ := List.exists_mem_of_ne_nil _ hne
    obtain ⟨u, hu, _⟩ := hsession pc hpc
    have hone : s.users.filter (·.email = email) = [u] := by
      obtain ⟨v, hv⟩ := List.length_eq_one_iff.mp
        (Nat.le_antisymm hs.unique (List.length_pos_of_mem hu))
      rw [hv, List.mem_singleton] at hu
      rw [hv, hu]
    refine ⟨u, hone, fun pc hpc => ?_⟩
    obtain ⟨v, hv, hrest⟩ := hsession pc hpc
    rw [hone, List.mem_singleton] at hv
    exact hv ▸ hrest

/-- The domain `b.c` is mapped to the tenant `t`. -/
def demoSSO : SSOHandlers where
  domainMap := (∅ : GoMap Bytes Bytes).insert (ofString "b.c") (ofString "t")
  defaultRole := .viewer
  lower := id
  assignable := rfl

/-- A callback of `a@b.c`. -/
def demoCallback : LoginEvent :=
  .callback ⟨some [1], some [2], [1], [3], some (ofString "A@b.c")⟩

/-- The next step of the `i`-th callback, with the random byte `b`. -/
def demoStep (i : Nat) (b : UInt8) : LoginEvent := .advance i (Vector.replicate 8 b) [b]

/-- The second callback looks the user up when the first one has created it. -/
def inTurn : List LoginEvent :=
  [demoCallback, demoCallback, demoStep 0 1, demoStep 0 2, demoStep 1 3, demoStep 1 4,
   demoStep 0 5]

def demoStart : Logins := { tenants := [ofString "t"], users := [] }

theorem inTurn_logsIn : ∃ s, runOption (step demoSSO) demoStart inTurn = some s ∧
    s.calls.length = 2 ∧ ∃ u, s.users.filter (·.email = ofString "a@b.c") = [u] ∧
      ∀ pc ∈ s.calls, ∃ x ∈ s.sessions, pc = .done (.redirect x) ∧ x.userID = u.id := by
  obtain ⟨s, hs, hlength, hdone⟩ : ∃ s, runOption (step demoSSO) demoStart inTurn = some s ∧
      s.calls.length = 2 ∧ s.calls.all (·.isDone) = true := by decide +kernel
  have hsteps : AllSteps (step demoSSO) (fun s ev => s.samePerson demoSSO (ofString "a@b.c")
      (ofString "t") ev ∧ s.createsFirst ev) demoStart inTurn := by decide +kernel
  have hlogins := firstLogin_of_createsFirst (by decide) (by decide) rfl hsteps hs
  exact ⟨s, hs, hlength, hlogins.2 (List.ne_nil_of_length_eq_add_one hlength) hdone⟩

/-- Both callbacks have looked the user up before the first one creates it. -/
def atOnce : List LoginEvent :=
  [demoCallback, demoCallback, demoStep 0 1, demoStep 1 2, demoStep 0 3, demoStep 1 4,
   demoStep 0 5]

/-- The second login fails. -/
theorem atOnce_fails : ∃ s, runOption (step demoSSO) demoStart atOnce = some s ∧
    AllSteps (step demoSSO) (fun s ev => s.samePerson demoSSO (ofString "a@b.c")
      (ofString "t") ev) demoStart atOnce ∧
    s.users.length = 1 ∧ s.calls[1]? = some (.done .serverError) := by
  decide +kernel

end Logins

end MockAgents
