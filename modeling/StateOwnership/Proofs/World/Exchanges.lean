import StateOwnership.Proofs.World.Establishing

/-!
# What a client in a role establishes

A client asks the services one thing after another, and holds the session and the connections that
come of it. **What it establishes in a role is added to what it holds, and what it holds is not asked
for again**; it holds nothing that was not completely established.
-/

namespace StateOwnership.Client

/-! ## 1. What exchanges come to -/

/-- A session was opened with the credentials of a role. -/
def isLent (session : Session) : Bool :=
  session.request.credentials.isSome

namespace Exchange

/-- The session in a role that is opened. -/
def opened? : Exchange → Option Session
  | .session request (.ok region) =>
    if request.credentials.isSome then some ⟨request, region⟩ else none
  | _ => none

/-- The connection to a service that is made in a role. -/
def made? (service : Service) : Exchange → Option Connection
  | .connection asked none =>
    if asked.service = service ∧ isLent asked.session then some asked else none
  | _ => none

/-- The credentials that are lent at a request. -/
def lent? (wanted : RoleRequest) : Exchange → Option Credentials
  | .role _ request (.ok credentials) => if request = wanted then some credentials else none
  | _ => none

/-- The credentials with which a session is asked for. -/
def spent? : Exchange → Option Credentials
  | .session request _ => request.credentials
  | _ => none

/-- The credentials with which no session could be opened. -/
def wasted? : Exchange → Option Credentials
  | .session request (.error _) => request.credentials
  | _ => none

/-- Something is asked for on the way to a session in a role. -/
def isOpening : Exchange → Bool
  | .session .. | .role .. => true
  | .connection asked _ => !isLent asked.session
  | .identity .. => false

def isFor (service : Service) : Exchange → Bool
  | .connection asked _ => asked.service = service
  | _ => false

/-- What was established in the first exchange is not asked for in the second. -/
structure Precedes (x y : Exchange) : Prop where
  session : x.opened?.isSome → y.isOpening = false
  connection : ∀ service, (x.made? service).isSome → y.isFor service = false

end Exchange

/-- The session that is held is one in a role, and the connections that are held are made in it. -/
structure State.InRole (s : State) : Prop where
  lent : ∀ session, s.session = some session → isLent session = true
  within : ∀ service connection, Entries.get? service s.connections = some connection →
    connection.service = service ∧ s.session = some connection.session

/-- What is established from one state to another in exchanges: the session and the connections that
are opened and made are all that is added to those that are held, credentials are lent one by one for
the sessions that are asked for, and nothing is asked for that is held. -/
structure Grows (client : Client) (wanted : RoleRequest) (s : State) (exchanges : List Exchange)
    (t : State) : Prop where
  calls_eq : t.calls = s.calls ++ exchanges.map (·.call client)
  session_eq : s.session.toList ++ exchanges.filterMap (·.opened?) = t.session.toList
  connections_eq : ∀ service, (Entries.get? service s.connections).toList ++
    exchanges.filterMap (·.made? service) = (Entries.get? service t.connections).toList
  lent_eq : exchanges.filterMap (·.lent? wanted) = exchanges.filterMap (·.spent?)
  order : exchanges.Pairwise Exchange.Precedes
  session_kept : s.session.isSome → ∀ y ∈ exchanges, y.isOpening = false
  connections_kept : ∀ service, (Entries.get? service s.connections).isSome →
    ∀ y ∈ exchanges, y.isFor service = false

-- What was held or is added is held afterwards.
theorem isSome_of_added {α : Type} {exchanges : List Exchange} {found? : Exchange → Option α}
    {held after : Option α} (h : held.toList ++ exchanges.filterMap found? = after.toList)
    (hs : held.isSome ∨ ∃ x ∈ exchanges, (found? x).isSome) : after.isSome := by
  cases after with
  | some a => rfl
  | none =>
    rw [Option.toList_none, List.append_eq_nil_iff, List.filterMap_eq_nil_iff] at h
    rcases hs with hs | ⟨x, hx, hfound⟩
    · simp [Option.toList_eq_nil_iff.mp h.1] at hs
    · simp [h.2 x hx] at hfound

namespace Grows

variable {client : Client} {wanted : RoleRequest} {s t u : State} {first second : List Exchange}

-- What a client has to say to the log establishes nothing.
theorem of_asked (h : Asked client s [] t) : Grows client wanted s [] t where
  calls_eq := h.calls_eq
  session_eq := by simp [h.session_eq]
  connections_eq service := by simp [h.connections_eq]
  lent_eq := rfl
  order := .nil
  session_kept _ _ hy := absurd hy List.not_mem_nil
  connections_kept _ _ _ hy := absurd hy List.not_mem_nil

theorem refl (s : State) : Grows client wanted s [] s :=
  .of_asked ⟨rfl, rfl, (List.append_nil _).symm⟩

-- What is held stays, and what was added is held.
theorem isSome_session (h : Grows client wanted s first t)
    (hs : s.session.isSome ∨ ∃ x ∈ first, x.opened?.isSome) : t.session.isSome :=
  isSome_of_added h.session_eq hs

theorem isSome_connection (h : Grows client wanted s first t) {service : Service}
    (hs : (Entries.get? service s.connections).isSome ∨
      ∃ x ∈ first, (x.made? service).isSome) : (Entries.get? service t.connections).isSome :=
  isSome_of_added (h.connections_eq service) hs

theorem trans (h : Grows client wanted s first t) (h' : Grows client wanted t second u) :
    Grows client wanted s (first ++ second) u where
  calls_eq := by rw [h'.calls_eq, h.calls_eq, List.map_append, List.append_assoc]
  session_eq := by
    rw [List.filterMap_append, ← List.append_assoc, h.session_eq, h'.session_eq]
  connections_eq service := by
    rw [List.filterMap_append, ← List.append_assoc, h.connections_eq, h'.connections_eq]
  lent_eq := by rw [List.filterMap_append, List.filterMap_append, h.lent_eq, h'.lent_eq]
  order := by
    refine List.pairwise_append.mpr ⟨h.order, h'.order, fun x hx y hy => ⟨fun hopened => ?_,
      fun service hmade => ?_⟩⟩
    · exact h'.session_kept (h.isSome_session (.inr ⟨x, hx, hopened⟩)) y hy
    · exact h'.connections_kept service (h.isSome_connection (.inr ⟨x, hx, hmade⟩)) y hy
  session_kept hs y hy := by
    rcases List.mem_append.mp hy with hy | hy
    · exact h.session_kept hs y hy
    · exact h'.session_kept (h.isSome_session (.inl hs)) y hy
  connections_kept service hs y hy := by
    rcases List.mem_append.mp hy with hy | hy
    · exact h.connections_kept service hs y hy
    · exact h'.connections_kept service (h.isSome_connection (.inl hs)) y hy

theorem connection_kept (h : Grows client wanted s first t) {service : Service}
    {connection : Connection} (hs : Entries.get? service s.connections = some connection) :
    Entries.get? service t.connections = some connection := by
  have hheld := h.connections_eq service
  rw [hs] at hheld
  cases ht : Entries.get? service t.connections with
  | none => simp [ht] at hheld
  | some other =>
    rw [ht] at hheld
    rw [(List.cons.inj hheld).1]

end Grows

/-! ## 2. Opening the session -/

/-- How a client in a role opens its session, or fails to. -/
inductive Opening (client : Client) (roleArn : Text) : List Exchange → Option Session → Prop where
  | environment {e : ServiceError} :
      Opening client roleArn [.session ⟨client.region, none⟩ (.error e)] none
  | tokens {region : Option Text} {e : ServiceError} :
      Opening client roleArn [.session ⟨client.region, none⟩ (.ok region),
        .connection ⟨.sts, client.environment region⟩ (some e)] none
  | role {region : Option Text} {e : ServiceError} :
      Opening client roleArn [.session ⟨client.region, none⟩ (.ok region),
        .connection ⟨.sts, client.environment region⟩ none,
        .role ⟨.sts, client.environment region⟩ (client.roleRequest roleArn) (.error e)] none
  | roleSession {region : Option Text} {credentials : Credentials} {e : ServiceError} :
      Opening client roleArn [.session ⟨client.region, none⟩ (.ok region),
        .connection ⟨.sts, client.environment region⟩ none,
        .role ⟨.sts, client.environment region⟩ (client.roleRequest roleArn) (.ok credentials),
        .session ⟨region, some credentials⟩ (.error e)] none
  | opened {region inForce : Option Text} {credentials : Credentials} :
      Opening client roleArn [.session ⟨client.region, none⟩ (.ok region),
        .connection ⟨.sts, client.environment region⟩ none,
        .role ⟨.sts, client.environment region⟩ (client.roleRequest roleArn) (.ok credentials),
        .session ⟨region, some credentials⟩ (.ok inForce)]
        (some ⟨⟨region, some credentials⟩, inForce⟩)

section Openings

variable {cloud : Cloud} {client : Client} {roleArn : Text} {exchanges : List Exchange}
  {session : Option Session}

theorem opening_of_role (cloud : Cloud) (hrole : client.roleArn = some roleArn) :
    Opening client roleArn (sessionExchanges cloud client)
      (sessionFrom cloud client).toOption := by
  simp only [sessionExchanges, sessionFrom, hrole]
  cases cloud.session ⟨client.region, none⟩ with
  | error e => exact .environment
  | ok region =>
    simp only [roleExchanges, roleSessionFrom]
    cases cloud.connection ⟨.sts, client.environment region⟩ with
    | some e => exact .tokens
    | none =>
      simp only
      cases cloud.assumeRole ⟨.sts, client.environment region⟩ (client.roleRequest roleArn) with
      | error e => exact .role
      | ok credentials =>
        simp only
        cases cloud.session ⟨(client.environment region).region, some credentials⟩ with
        | error e => exact .roleSession
        | ok inForce => exact .opened

theorem isLent_environment (client : Client) (region : Option Text) :
    isLent (client.environment region) = false := rfl

-- An exchange that establishes nothing in a role may come before any other.
theorem precedes_of_nothing {x y : Exchange} (hopened : x.opened? = none)
    (hmade : ∀ service, x.made? service = none) : x.Precedes y :=
  ⟨by simp [hopened], by simp [hmade]⟩

theorem Opening.isLent (h : Opening client roleArn exchanges session) :
    ∀ held, session = some held → isLent held = true := by
  cases h <;> simp [Client.isLent]

theorem Opening.opened_eq (h : Opening client roleArn exchanges session) :
    exchanges.filterMap (·.opened?) = session.toList := by
  cases h <;> rfl

-- On the way to a session no connection is made in a role.
theorem Opening.made_eq (h : Opening client roleArn exchanges session) (service : Service) :
    exchanges.filterMap (·.made? service) = [] := by
  cases h <;> simp [Exchange.made?, isLent_environment]

theorem Opening.lent_eq (h : Opening client roleArn exchanges session) :
    exchanges.filterMap (·.lent? (client.roleRequest roleArn)) =
      exchanges.filterMap (·.spent?) := by
  cases h <;> simp [Exchange.lent?, Exchange.spent?]

-- Only the last of the exchanges establishes something.
theorem Opening.order (h : Opening client roleArn exchanges session) :
    exchanges.Pairwise Exchange.Precedes := by
  have hsession {region : Option Text} {answer : Except ServiceError (Option Text)}
      (y : Exchange) : (Exchange.session ⟨region, none⟩ answer).Precedes y := by
    cases answer <;> exact precedes_of_nothing rfl fun _ => rfl
  have htokens {region : Option Text} {refusal : Option ServiceError} (y : Exchange) :
      (Exchange.connection ⟨.sts, client.environment region⟩ refusal).Precedes y := by
    refine precedes_of_nothing rfl fun service => ?_
    cases refusal <;> simp [Exchange.made?, isLent_environment]
  have hrole {channel : Connection} {request : RoleRequest}
      {answer : Except ServiceError Credentials} (y : Exchange) :
      (Exchange.role channel request answer).Precedes y := precedes_of_nothing rfl fun _ => rfl
  cases h <;> simp [hsession, htokens, hrole]

-- A state in which the session is opened that was not held before.
theorem Opening.grows {s t : State} (h : Opening client roleArn exchanges session)
    (hs : s.InRole) (hnone : s.session = none)
    (hasked : Asked client { s with session := session } exchanges t) :
    Grows client (client.roleRequest roleArn) s exchanges t ∧ t.InRole := by
  have hconnections (service : Service) : Entries.get? service s.connections = none := by
    cases hheld : Entries.get? service s.connections with
    | none => rfl
    | some connection =>
      have hwithin := (hs.within service connection hheld).2
      simp [hnone] at hwithin
  refine ⟨⟨hasked.calls_eq, ?_, fun service => ?_, h.lent_eq, h.order, ?_, ?_⟩, ?_, ?_⟩
  · rw [hnone, h.opened_eq, hasked.session_eq]
    rfl
  · rw [h.made_eq, hasked.connections_eq, List.append_nil]
  · simp [hnone]
  · simp [hconnections]
  · rw [hasked.session_eq]
    exact h.isLent
  · intro service connection hheld
    rw [hasked.connections_eq, hconnections] at hheld
    simp at hheld

end Openings

/-! ## 3. Connecting and asking for the identity -/

def connectExchanges (cloud : Cloud) (client : Client) (service : Service) (s : State) :
    List Exchange :=
  match Entries.get? service s.connections with
  | some _ => []
  | none =>
    (if s.session = none then sessionExchanges cloud client else []) ++
      match ((Client.session cloud client).run.run s).1 with
      | .ok session => [.connection ⟨service, session⟩ (cloud.connection ⟨service, session⟩)]
      | .error _ => []

def identityExchanges (cloud : Cloud) (client : Client) (s : State) : List Exchange :=
  connectExchanges cloud client .sts s ++
    match ((connect cloud client .sts).run.run s).1 with
    | .ok connection => [.identity connection (cloud.identity connection)]
    | .error _ => []

section Steps

variable {cloud : Cloud} {client : Client} {roleArn : Text} {wanted : RoleRequest}
  {service : Service} {s t : State} {session : Session} {connection : Connection} {x : Exchange}

theorem run_session_of_some (cloud : Cloud) (client : Client) (hs : s.session = some session) :
    (Client.session cloud client).run.run s = (.ok session, s) := by
  rw [Client.session, run_bind]
  simp only [run_get, hs]
  rfl

theorem run_connect_of_some (cloud : Cloud) (client : Client)
    (hs : Entries.get? service s.connections = some connection) :
    (connect cloud client service).run.run s = (.ok connection, s) := by
  rw [connect, run_bind]
  simp only [run_get, hs]
  rfl

theorem State.InRole.of_asked {exchanges : List Exchange} (hs : s.InRole)
    (hasked : Asked client s exchanges t) : t.InRole := by
  constructor
  · rw [hasked.session_eq]
    exact hs.lent
  · rw [hasked.session_eq, hasked.connections_eq]
    exact hs.within

-- An exchange in a role that establishes nothing.
theorem grows_of_asked (hasked : Asked client s [x] t) (hopened : x.opened? = none)
    (hmade : ∀ service, x.made? service = none) (hlent : x.lent? wanted = none)
    (hspent : x.spent? = none) (hopening : x.isOpening = false)
    (hnew : ∀ service, (Entries.get? service s.connections).isSome → x.isFor service = false) :
    Grows client wanted s [x] t where
  calls_eq := hasked.calls_eq
  session_eq := by simp [hopened, hasked.session_eq]
  connections_eq service := by simp [hmade, hasked.connections_eq]
  lent_eq := by simp [hlent, hspent]
  order := List.pairwise_singleton ..
  session_kept _ y hy := List.mem_singleton.mp hy ▸ hopening
  connections_kept service hheld y hy := List.mem_singleton.mp hy ▸ hnew service hheld

-- A client in a role that comes to a session holds it.
theorem session_grows (cloud : Cloud) (hrole : client.roleArn = some roleArn) (hs : s.InRole) :
    ∃ result t, (Client.session cloud client).run.run s = (result, t) ∧ t.InRole ∧
      t.connections = s.connections ∧
      (∀ session, result = .ok session → t.session = some session) ∧
      Grows client (client.roleRequest roleArn) s
        (if s.session = none then sessionExchanges cloud client else []) t := by
  cases hheld : s.session with
  | some session =>
    rw [if_neg (by simp)]
    refine ⟨_, s, run_session_of_some cloud client hheld, hs, rfl, ?_, .refl s⟩
    rintro _ ⟨⟩
    exact hheld
  | none =>
    obtain ⟨t, hrun, hasked⟩ := run_session cloud client hheld
    obtain ⟨hgrows, hinRole⟩ := (opening_of_role cloud hrole).grows hs hheld hasked
    rw [if_pos rfl]
    refine ⟨_, t, hrun, hinRole, hasked.connections_eq, fun session hsession => ?_, hgrows⟩
    rw [hasked.session_eq, hsession]
    rfl

-- A connection that is made in the session that is held.
theorem grows_of_made (hs : s.InRole) (hheld : s.session = some session)
    (hnone : Entries.get? service s.connections = none)
    (hasked : Asked client
      { s with connections := Entries.put service ⟨service, session⟩ s.connections }
      [.connection ⟨service, session⟩ none] t) :
    Grows client wanted s [.connection ⟨service, session⟩ none] t ∧ t.InRole := by
  have hlent : isLent session = true := hs.lent session hheld
  have hget (other : Service) : Entries.get? other t.connections =
      if service = other then some ⟨service, session⟩ else Entries.get? other s.connections := by
    rw [hasked.connections_eq, Entries.get?_put]
  refine ⟨⟨hasked.calls_eq, ?_, fun other => ?_, rfl, List.pairwise_singleton .., ?_, ?_⟩, ?_, ?_⟩
  · simp [Exchange.opened?, hasked.session_eq]
  · rw [hget]
    by_cases hother : service = other
    · subst hother
      simp [Exchange.made?, hlent, hnone]
    · simp [Exchange.made?, hother]
  · simp [Exchange.isOpening, hlent]
  · intro other hother y hy
    obtain rfl := List.mem_singleton.mp hy
    have hne : service ≠ other := by
      rintro rfl
      simp [hnone] at hother
    simp [Exchange.isFor, hne]
  · rw [hasked.session_eq]
    exact hs.lent
  · intro other connection hconnection
    rw [hget] at hconnection
    rw [hasked.session_eq]
    split at hconnection
    · rename_i hother
      obtain rfl := Option.some.inj hconnection
      exact ⟨hother, hheld⟩
    · exact hs.within other connection hconnection

-- A connection that is refused in the session that is held.
theorem grows_of_refused {e : ServiceError} (hs : s.InRole) (hheld : s.session = some session)
    (hnone : Entries.get? service s.connections = none)
    (hasked : Asked client s [.connection ⟨service, session⟩ (some e)] t) :
    Grows client wanted s [.connection ⟨service, session⟩ (some e)] t ∧ t.InRole := by
  refine ⟨grows_of_asked hasked rfl (fun _ => rfl) rfl rfl ?_ fun other hother => ?_,
    hs.of_asked hasked⟩
  · simp [Exchange.isOpening, hs.lent session hheld]
  · have hne : service ≠ other := by
      rintro rfl
      simp [hnone] at hother
    simp [Exchange.isFor, hne]

/-- What connecting to a service comes to: the connection is held if it succeeds, and none is if it
fails. -/
structure Connects (client : Client) (wanted : RoleRequest) (service : Service) (s : State)
    (exchanges : List Exchange) (result : Except Failure Connection) (t : State) : Prop where
  grows : Grows client wanted s exchanges t
  inRole : t.InRole
  held : ∀ connection, result = .ok connection →
    Entries.get? service t.connections = some connection
  none : ∀ failure, result = .error failure → Entries.get? service t.connections = none

-- A connection is asked for in the session that was come to.
theorem connects_of_refused {exchanges : List Exchange} {e : ServiceError} {u : State}
    (hgrows : Grows client wanted s exchanges t) (hinRole : t.InRole)
    (hheld : t.session = some session) (hnone : Entries.get? service t.connections = none)
    (hasked : Asked client t [.connection ⟨service, session⟩ (some e)] u) (failure : Failure) :
    Connects client wanted service s (exchanges ++ [.connection ⟨service, session⟩ (some e)])
      (.error failure) u := by
  obtain ⟨hgrows', hinRole'⟩ := grows_of_refused hinRole hheld hnone hasked
  refine ⟨hgrows.trans hgrows', hinRole', nofun, fun _ _ => ?_⟩
  rw [hasked.connections_eq, hnone]

theorem connects_of_made {exchanges : List Exchange} {u : State}
    (hgrows : Grows client wanted s exchanges t) (hinRole : t.InRole)
    (hheld : t.session = some session) (hnone : Entries.get? service t.connections = none)
    (hasked : Asked client
      { t with connections := Entries.put service ⟨service, session⟩ t.connections }
      [.connection ⟨service, session⟩ none] u) :
    Connects client wanted service s (exchanges ++ [.connection ⟨service, session⟩ none])
      (.ok ⟨service, session⟩) u := by
  obtain ⟨hgrows', hinRole'⟩ := grows_of_made hinRole hheld hnone hasked
  refine ⟨hgrows.trans hgrows', hinRole', ?_, nofun⟩
  rintro _ ⟨⟩
  rw [hasked.connections_eq, Entries.get?_put, if_pos rfl]

theorem connect_connects (cloud : Cloud) (service : Service)
    (hrole : client.roleArn = some roleArn) (hs : s.InRole) :
    Connects client (client.roleRequest roleArn) service s
      (connectExchanges cloud client service s)
      ((connect cloud client service).run.run s).1
      ((connect cloud client service).run.run s).2 := by
  rw [connectExchanges]
  cases hget : Entries.get? service s.connections with
  | some connection =>
    rw [run_connect_of_some cloud client hget]
    refine ⟨.refl s, hs, ?_, nofun⟩
    rintro _ ⟨⟩
    exact hget
  | none =>
    obtain ⟨result, t, hrun, hinRole, hconnections, hheld, hgrows⟩ := session_grows cloud hrole hs
    have hnone : Entries.get? service t.connections = none := by rw [hconnections, hget]
    rw [run_connect_of_none cloud client hget, run_bind, run_rewording, run_bind, hrun]
    cases result with
    | error failure =>
      simp only [List.append_nil]
      exact ⟨hgrows, hinRole, nofun, fun _ _ => hnone⟩
    | ok session =>
      simp only [run_openConnection]
      have hsession := hheld session rfl
      cases hanswer : cloud.connection ⟨service, session⟩ with
      | some e =>
        refine connects_of_refused hgrows hinRole hsession hnone ?_ _
        exact ⟨rfl, rfl, rfl⟩
      | none => exact connects_of_made hgrows hinRole hsession hnone ⟨rfl, rfl, rfl⟩

theorem run_callerIdentity (cloud : Cloud) (client : Client) (s : State) :
    (callerIdentity cloud client).run.run s =
      match (connect cloud client .sts).run.run s with
      | (.error failure, t) => (.error (reworded identityFailure failure), t)
      | (.ok connection, t) => ((cloud.identity connection).mapError identityFailure,
          { t with calls := t.calls ++ [.identity] }) := by
  rw [callerIdentity, run_rewording, run_bind]
  rcases (connect cloud client .sts).run.run s with ⟨failure | connection, t⟩
  · rfl
  · simp only [run_bind]
    cases cloud.identity connection <;> rfl

/-- What asking for the identity comes to: it is asked for over the connection that is held, which is
kept if the answer is a failure. -/
structure Identifies (client : Client) (wanted : RoleRequest) (s : State)
    (exchanges : List Exchange) (result : Except Failure Text) (t : State) : Prop where
  grows : Grows client wanted s exchanges t
  inRole : t.InRole
  held : ∀ arn, result = .ok arn → ∃ connection,
    Entries.get? .sts t.connections = some connection ∧
      .identity connection (.ok arn) ∈ exchanges
  kept : ∀ failure, result = .error failure → Entries.get? .sts t.connections = none ∨
    ∃ connection e, Entries.get? .sts t.connections = some connection ∧
      .identity connection (.error e) ∈ exchanges

theorem identifies_callerIdentity (cloud : Cloud) (hrole : client.roleArn = some roleArn)
    (hs : s.InRole) :
    Identifies client (client.roleRequest roleArn) s (identityExchanges cloud client s)
      ((callerIdentity cloud client).run.run s).1 ((callerIdentity cloud client).run.run s).2 := by
  have hconnects := connect_connects cloud .sts hrole hs
  rw [run_callerIdentity, identityExchanges]
  rcases hrun : (connect cloud client .sts).run.run s with ⟨failure | connection, t⟩
  · rw [hrun] at hconnects
    simp only [List.append_nil]
    exact ⟨hconnects.grows, hconnects.inRole, nofun, fun _ _ => .inl (hconnects.none failure rfl)⟩
  · rw [hrun] at hconnects
    have hheld := hconnects.held connection rfl
    have hasked : Asked client t [.identity connection (cloud.identity connection)]
        { t with calls := t.calls ++ [.identity] } := ⟨rfl, rfl, rfl⟩
    have hgrows : Grows client (client.roleRequest roleArn) t
        [.identity connection (cloud.identity connection)]
        { t with calls := t.calls ++ [.identity] } :=
      grows_of_asked hasked rfl (fun _ => rfl) rfl rfl rfl fun _ _ => rfl
    refine ⟨hconnects.grows.trans hgrows, hconnects.inRole.of_asked hasked, ?_, ?_⟩
    · intro arn harn
      cases hanswer : cloud.identity connection with
      | error e => simp [hanswer, Except.mapError] at harn
      | ok found =>
        simp only [hanswer, Except.mapError, Except.ok.injEq] at harn
        exact ⟨connection, hheld, by simp [hanswer, harn]⟩
    · intro failure hfailure
      cases hanswer : cloud.identity connection with
      | error e => exact .inr ⟨connection, e, hheld, by simp [hanswer]⟩
      | ok found => simp [hanswer, Except.mapError] at hfailure

theorem Identifies.of_asked {exchanges : List Exchange} {result : Except Failure Text} {u : State}
    (h : Identifies client wanted s exchanges result t) (hasked : Asked client t [] u) :
    Identifies client wanted s exchanges result u := by
  refine ⟨?_, h.inRole.of_asked hasked, ?_, ?_⟩
  · simpa using h.grows.trans (.of_asked hasked)
  · rw [hasked.connections_eq]
    exact h.held
  · rw [hasked.connections_eq]
    exact h.kept

theorem identifies_validateCredentials (cloud : Cloud) (hrole : client.roleArn = some roleArn)
    (hs : s.InRole) :
    Identifies client (client.roleRequest roleArn) s (identityExchanges cloud client s)
      ((validateCredentials cloud client).run.run s).1
      ((validateCredentials cloud client).run.run s).2 := by
  have hidentifies := identifies_callerIdentity cloud hrole hs
  rw [validateCredentials, run_bind]
  rcases hrun : (callerIdentity cloud client).run.run s with ⟨failure | arn, t⟩
  · rwa [hrun] at hidentifies
  · rw [hrun] at hidentifies
    exact hidentifies.of_asked ⟨rfl, rfl, (List.append_nil _).symm⟩

end Steps

end StateOwnership.Client
