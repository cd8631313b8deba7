import StateOwnership.Proofs.World.Running

/-!
# What a client can be denied

A client that has established nothing and connects opens the session of the environment, in a role
also a connection to the token service, the role and a session in it, and then the connection. **It
connects if and only if it is denied nothing; otherwise its failure follows from what it is denied
first**, and is in the library's own words for some kinds of denial and not for others.
-/

namespace StateOwnership.Client

/-- What a client asks for until it is connected, in order. -/
inductive Stage where
  | environment
  /-- A connection to the service that lends roles. -/
  | tokens
  | role
  | roleSession
  | connection
  deriving DecidableEq, Repr

/-- The session of the environment, if the given region is in force in it. -/
def environment (client : Client) (region : Option Text) : Session :=
  ⟨⟨client.region, none⟩, region⟩

def roleRequest (client : Client) (roleArn : Text) : RoleRequest :=
  ⟨roleArn, client.sessionName, client.externalId⟩

/-- A role is lent to a client: the region in force in the environment, and the credentials. -/
structure Lent (cloud : Cloud) (client : Client) (roleArn : Text) (region : Option Text)
    (credentials : Credentials) : Prop where
  environment : cloud.session ⟨client.region, none⟩ = .ok region
  tokens : cloud.connection ⟨.sts, client.environment region⟩ = none
  role : cloud.assumeRole ⟨.sts, client.environment region⟩ (client.roleRequest roleArn) =
    .ok credentials

inductive Opens (cloud : Cloud) (client : Client) : Session → Prop where
  | plain {region : Option Text} (hrole : client.roleArn = none)
      (hopen : cloud.session ⟨client.region, none⟩ = .ok region) :
      Opens cloud client (client.environment region)
  | inRole {roleArn : Text} {region inForce : Option Text} {credentials : Credentials}
      (hrole : client.roleArn = some roleArn)
      (hlent : Lent cloud client roleArn region credentials)
      (hopen : cloud.session ⟨region, some credentials⟩ = .ok inForce) :
      Opens cloud client ⟨⟨region, some credentials⟩, inForce⟩

/-- What a client is denied first when it connects to a service, and for what reason. -/
inductive Denied (cloud : Cloud) (client : Client) (service : Service) :
    Stage → ServiceError → Prop where
  | environment {e : ServiceError} (hdenied : cloud.session ⟨client.region, none⟩ = .error e) :
      Denied cloud client service .environment e
  | tokens {roleArn : Text} {region : Option Text} {e : ServiceError}
      (hrole : client.roleArn = some roleArn)
      (hopen : cloud.session ⟨client.region, none⟩ = .ok region)
      (hdenied : cloud.connection ⟨.sts, client.environment region⟩ = some e) :
      Denied cloud client service .tokens e
  | role {roleArn : Text} {region : Option Text} {e : ServiceError}
      (hrole : client.roleArn = some roleArn)
      (hopen : cloud.session ⟨client.region, none⟩ = .ok region)
      (hconnect : cloud.connection ⟨.sts, client.environment region⟩ = none)
      (hdenied : cloud.assumeRole ⟨.sts, client.environment region⟩ (client.roleRequest roleArn) =
        .error e) : Denied cloud client service .role e
  | roleSession {roleArn : Text} {region : Option Text} {credentials : Credentials}
      {e : ServiceError} (hrole : client.roleArn = some roleArn)
      (hlent : Lent cloud client roleArn region credentials)
      (hdenied : cloud.session ⟨region, some credentials⟩ = .error e) :
      Denied cloud client service .roleSession e
  | connection {session : Session} {e : ServiceError} (hopens : Opens cloud client session)
      (hdenied : cloud.connection ⟨service, session⟩ = some e) :
      Denied cloud client service .connection e

/-- How the failure of a client is reported that is denied something at a stage: as an attempt to
assume its role or not, and then as an attempt to connect. -/
def reported (client : Client) (service : Service) (stage : Stage) (e : ServiceError) : Failure :=
  reworded (connectionFailure service)
    (match stage with
      | .environment => sessionFailure e
      | .tokens | .role => roleFailure (client.roleArn.getD []) e
      | .roleSession | .connection => .service e)

/-! ## 1. Steps -/

section Steps

variable {α β : Type} (cloud : Cloud) (client : Client) (s : State)

theorem run_bind (step : Step α) (next : α → Step β) : (step >>= next).run.run s =
    match step.run.run s with
    | (.ok a, t) => (next a).run.run t
    | (.error failure, t) => (.error failure, t) := by
  simp only [bind, ExceptT.bind, ExceptT.mk, ExceptT.run, StateT.run, StateT.bind]
  rcases step s with ⟨result, t⟩
  cases result <;> rfl

theorem run_get : (get : Step State).run.run s = (.ok s, s) := rfl

theorem run_rewording (report : ServiceError → Failure) (step : Step α) :
    (rewording report step).run.run s =
      ((step.run.run s).1.mapError (reworded report), (step.run.run s).2) := by
  simp only [rewording, tryCatch, tryCatchThe, MonadExceptOf.tryCatch, ExceptT.tryCatch,
    ExceptT.mk, ExceptT.run, StateT.run, bind, StateT.bind]
  rcases step s with ⟨result, t⟩
  cases result <;> rfl

theorem run_openSession (request : SessionRequest) :
    (openSession cloud request).run.run s =
      (match cloud.session request with
        | .ok region => .ok ⟨request, region⟩
        | .error e => .error (.service e), { s with calls := s.calls ++ [.session request] }) := by
  rw [openSession, run_bind]
  cases cloud.session request <;> rfl

theorem run_openConnection (session : Session) (service : Service) :
    (openConnection cloud client session service).run.run s =
      (match cloud.connection ⟨service, session⟩ with
        | none => .ok ⟨service, session⟩
        | some e => .error (.service e),
        { s with calls := s.calls ++
          [.connection service session.region client.maxRetries client.timeout] }) := by
  rw [openConnection, run_bind]
  cases cloud.connection ⟨service, session⟩ <;> rfl

theorem run_assume (connection : Connection) (request : RoleRequest) :
    (assume cloud connection request).run.run s =
      (match cloud.assumeRole connection request with
        | .ok credentials => .ok credentials
        | .error e => .error (.service e),
        { s with calls := s.calls ++ [.assumeRole request] }) := by
  rw [assume, run_bind]
  cases cloud.assumeRole connection request <;> rfl

end Steps

/-! ## 2. What is asked -/

/-- Something that is asked of the services, with the answer. -/
inductive Exchange where
  | session (request : SessionRequest) (answer : Except ServiceError (Option Text))
  | connection (asked : Connection) (refusal : Option ServiceError)
  | role (channel : Connection) (request : RoleRequest) (answer : Except ServiceError Credentials)
  | identity (channel : Connection) (answer : Except ServiceError Text)
  deriving DecidableEq

def Exchange.call (client : Client) : Exchange → Call
  | .session request _ => .session request
  | .connection asked _ =>
    .connection asked.service asked.session.region client.maxRetries client.timeout
  | .role _ request _ => .assumeRole request
  | .identity _ _ => .identity

/-- What a client asks for when it opens a session in a role, from the session of the environment. -/
def roleExchanges (cloud : Cloud) (client : Client) (roleArn : Text) (base : Session) :
    List Exchange :=
  .connection ⟨.sts, base⟩ (cloud.connection ⟨.sts, base⟩) ::
    match cloud.connection ⟨.sts, base⟩ with
    | some _ => []
    | none =>
      .role ⟨.sts, base⟩ (client.roleRequest roleArn)
          (cloud.assumeRole ⟨.sts, base⟩ (client.roleRequest roleArn)) ::
        match cloud.assumeRole ⟨.sts, base⟩ (client.roleRequest roleArn) with
        | .error _ => []
        | .ok credentials => [.session ⟨base.region, some credentials⟩
            (cloud.session ⟨base.region, some credentials⟩)]

def sessionExchanges (cloud : Cloud) (client : Client) : List Exchange :=
  .session ⟨client.region, none⟩ (cloud.session ⟨client.region, none⟩) ::
    match cloud.session ⟨client.region, none⟩, client.roleArn with
    | .ok region, some roleArn => roleExchanges cloud client roleArn (client.environment region)
    | _, _ => []

/-- Exchanges lead from one state of a client to another in which the same is established. -/
structure Asked (client : Client) (s : State) (exchanges : List Exchange) (t : State) : Prop where
  session_eq : t.session = s.session
  connections_eq : t.connections = s.connections
  calls_eq : t.calls = s.calls ++ exchanges.map (·.call client)

/-! ## 3. What the answers come to -/

/-- The session in a role, from the answers alone. -/
def roleSessionFrom (cloud : Cloud) (client : Client) (roleArn : Text) (base : Session) :
    Except Failure Session :=
  match cloud.connection ⟨.sts, base⟩ with
  | some e => .error (roleFailure roleArn e)
  | none =>
    match cloud.assumeRole ⟨.sts, base⟩ (client.roleRequest roleArn) with
    | .error e => .error (roleFailure roleArn e)
    | .ok credentials =>
      match cloud.session ⟨base.region, some credentials⟩ with
      | .ok region => .ok ⟨⟨base.region, some credentials⟩, region⟩
      | .error e => .error (.service e)

/-- The session of a client, from the answers alone. -/
def sessionFrom (cloud : Cloud) (client : Client) : Except Failure Session :=
  match cloud.session ⟨client.region, none⟩ with
  | .error e => .error (sessionFailure e)
  | .ok region =>
    match client.roleArn with
    | none => .ok (client.environment region)
    | some roleArn => roleSessionFrom cloud client roleArn (client.environment region)

/-- The connection of a client, from the answers alone. -/
def connectionFrom (cloud : Cloud) (client : Client) (service : Service) :
    Except Failure Connection :=
  match sessionFrom cloud client with
  | .error failure => .error (reworded (connectionFailure service) failure)
  | .ok session =>
    match cloud.connection ⟨service, session⟩ with
    | none => .ok ⟨service, session⟩
    | some e => .error (connectionFailure service e)

section Results

variable {cloud : Cloud} {client : Client} {service : Service} {stage : Stage} {e : ServiceError}
  {session : Session} {s : State}

theorem run_baseSession (cloud : Cloud) (client : Client) (s : State) :
    ∃ t, (baseSession cloud client).run.run s =
      (match cloud.session ⟨client.region, none⟩ with
        | .ok region => .ok (client.environment region)
        | .error e => .error (sessionFailure e), t) ∧
      Asked client s [.session ⟨client.region, none⟩ (cloud.session ⟨client.region, none⟩)] t := by
  rw [baseSession, run_rewording, run_bind, run_openSession]
  cases cloud.session ⟨client.region, none⟩ <;> exact ⟨_, rfl, rfl, rfl, rfl⟩

theorem run_roleSession (cloud : Cloud) (client : Client) (roleArn : Text) (base : Session)
    (s : State) : ∃ t, (roleSession cloud client roleArn base).run.run s =
        (roleSessionFrom cloud client roleArn base, t) ∧
      Asked client s (roleExchanges cloud client roleArn base) t := by
  rw [roleSession, run_bind, run_rewording, run_bind, run_openConnection, roleSessionFrom,
    roleExchanges]
  cases cloud.connection ⟨.sts, base⟩ with
  | some e => exact ⟨_, rfl, rfl, rfl, rfl⟩
  | none =>
    simp only [run_assume, roleRequest]
    cases cloud.assumeRole ⟨.sts, base⟩ ⟨roleArn, client.sessionName, client.externalId⟩ with
    | error e => exact ⟨_, rfl, rfl, rfl, List.append_assoc ..⟩
    | ok credentials =>
      simp only [Except.mapError, run_bind, run_openSession]
      have hcalls (calls : List Call) (first second third : Call) :
          calls ++ [first] ++ [second] ++ [third] = calls ++ [first, second, third] := by simp
      cases cloud.session ⟨base.region, some credentials⟩ <;>
        exact ⟨_, rfl, rfl, rfl, hcalls _ _ _ _⟩

theorem run_session_of_none (cloud : Cloud) (client : Client) (hs : s.session = none) :
    (Client.session cloud client).run.run s = (do
      let base ← baseSession cloud client
      let session ← match client.roleArn with
        | none => pure base
        | some roleArn => roleSession cloud client roleArn base
      modify fun s => { s with session := some session }
      return session : Step Session).run.run s := by
  rw [Client.session, run_bind]
  cases client.roleArn <;> simp only [run_get, hs]

-- A client that has no session asks for one, and keeps it if it is opened.
theorem run_session (cloud : Cloud) (client : Client) (hs : s.session = none) :
    ∃ t, (Client.session cloud client).run.run s = (sessionFrom cloud client, t) ∧
      Asked client { s with session := (sessionFrom cloud client).toOption }
        (sessionExchanges cloud client) t := by
  obtain ⟨t, hbase, hasked⟩ := run_baseSession cloud client s
  rw [run_session_of_none cloud client hs, run_bind, hbase, sessionFrom, sessionExchanges]
  cases cloud.session ⟨client.region, none⟩ with
  | error e => exact ⟨t, rfl, hasked.session_eq.trans hs, hasked.connections_eq, hasked.calls_eq⟩
  | ok region =>
    cases client.roleArn with
    | none => exact ⟨_, rfl, rfl, hasked.connections_eq, hasked.calls_eq⟩
    | some roleArn =>
      obtain ⟨t', hsession, hasked'⟩ :=
        run_roleSession cloud client roleArn (client.environment region) t
      have hconnections := hasked'.connections_eq.trans hasked.connections_eq
      have hcalls := hasked'.calls_eq
      rw [hasked.calls_eq, List.append_assoc, ← List.map_append] at hcalls
      simp only [run_bind, hsession]
      cases roleSessionFrom cloud client roleArn (client.environment region) with
      | error failure =>
        have hnone := (hasked'.session_eq.trans hasked.session_eq).trans hs
        exact ⟨t', rfl, hnone, hconnections, hcalls⟩
      | ok session => exact ⟨_, rfl, rfl, hconnections, hcalls⟩

theorem run_connect_of_none (cloud : Cloud) (client : Client)
    (hnone : Entries.get? service s.connections = none) :
    (connect cloud client service).run.run s = (do
      let connection ← rewording (connectionFailure service) do
        let session ← Client.session cloud client
        openConnection cloud client session service
      modify fun s => { s with connections := Entries.put service connection s.connections }
      record Log.debug
        ("Created " ++ service.name ++ " client for " ++ Text.shown client.region)
      return connection : Step Connection).run.run s := by
  rw [connect, run_bind]
  simp only [run_get, hnone]

-- What a client comes to that has established nothing follows from the answers.
theorem run_connect (cloud : Cloud) (client : Client) (service : Service) (hs : s.session = none)
    (hconnections : s.connections = []) :
    ((connect cloud client service).run.run s).1 = connectionFrom cloud client service := by
  have hnone : Entries.get? service s.connections = none := by
    rw [hconnections]
    rfl
  obtain ⟨t, hsession, -⟩ := run_session cloud client hs
  rw [run_connect_of_none cloud client hnone, run_bind, run_rewording, run_bind, hsession,
    connectionFrom]
  cases sessionFrom cloud client with
  | error failure => rfl
  | ok session =>
    simp only [run_openConnection]
    cases cloud.connection ⟨service, session⟩ <;> rfl

theorem sessionFrom_of_opens (h : Opens cloud client session) :
    sessionFrom cloud client = .ok session := by
  cases h with
  | plain hrole hopen => rw [sessionFrom, hopen, hrole]
  | inRole hrole hlent hopen =>
    simp only [sessionFrom, hlent.environment, hrole, roleSessionFrom, hlent.tokens, hlent.role]
    rw [environment, hopen]

-- A client connects if it opens a session and is not denied the connection in it.
theorem connectionFrom_of_opens (hopens : Opens cloud client session)
    (hconnect : cloud.connection ⟨service, session⟩ = none) :
    connectionFrom cloud client service = .ok ⟨service, session⟩ := by
  simp only [connectionFrom, sessionFrom_of_opens hopens, hconnect]

-- The failure of a client follows from what it is denied first.
theorem connectionFrom_of_denied (h : Denied cloud client service stage e) :
    connectionFrom cloud client service = .error (client.reported service stage e) := by
  cases h with
  | environment hdenied => simp only [connectionFrom, sessionFrom, hdenied, reported]
  | tokens hrole hopen hdenied =>
    simp only [connectionFrom, sessionFrom, hopen, hrole, roleSessionFrom, hdenied, reported,
      Option.getD_some]
  | role hrole hopen hconnect hdenied =>
    simp only [connectionFrom, sessionFrom, hopen, hrole, roleSessionFrom, hconnect, hdenied,
      reported, Option.getD_some]
  | roleSession hrole hlent hdenied =>
    simp only [connectionFrom, sessionFrom, hlent.environment, hrole, roleSessionFrom, hlent.tokens,
      hlent.role, reported]
    rw [environment, hdenied]
  | connection hopens hdenied =>
    simp only [connectionFrom, sessionFrom_of_opens hopens, hdenied, reported]
    rfl

/-- **A client connects or is denied something**: whatever the answers are, either it opens a session
and a connection in it, or there is a first thing that it is denied. -/
theorem opens_or_denied (cloud : Cloud) (client : Client) (service : Service) :
    (∃ session, Opens cloud client session ∧ cloud.connection ⟨service, session⟩ = none) ∨
      ∃ stage e, Denied cloud client service stage e := by
  have hlast {session : Session} (hopens : Opens cloud client session) :
      (∃ session, Opens cloud client session ∧ cloud.connection ⟨service, session⟩ = none) ∨
        ∃ stage e, Denied cloud client service stage e := by
    cases hconnect : cloud.connection ⟨service, session⟩ with
    | none => exact .inl ⟨session, hopens, hconnect⟩
    | some e => exact .inr ⟨_, e, .connection hopens hconnect⟩
  cases hbase : cloud.session ⟨client.region, none⟩ with
  | error e => exact .inr ⟨_, e, .environment hbase⟩
  | ok region =>
    cases hrole : client.roleArn with
    | none => exact hlast (.plain hrole hbase)
    | some roleArn =>
      cases htokens : cloud.connection ⟨.sts, client.environment region⟩ with
      | some e => exact .inr ⟨_, e, .tokens hrole hbase htokens⟩
      | none =>
        cases hassume : cloud.assumeRole ⟨.sts, client.environment region⟩
          (client.roleRequest roleArn) with
        | error e => exact .inr ⟨_, e, .role hrole hbase htokens hassume⟩
        | ok credentials =>
          have hlent : Lent cloud client roleArn region credentials := ⟨hbase, htokens, hassume⟩
          cases hopen : cloud.session ⟨region, some credentials⟩ with
          | error e => exact .inr ⟨_, e, .roleSession hrole hlent hopen⟩
          | ok inForce => exact hlast (.inRole hrole hlent hopen)

end Results
end StateOwnership.Client
