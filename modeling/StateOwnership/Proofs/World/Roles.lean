import StateOwnership.Proofs.World.Exchanges

/-!
# Clients in a role

A client that has a role is used in any order for its connections and for its identity, and the
services may answer differently each time. **Whatever it returns was made in the one session that it
opened with what its role lent; once that is open, no session and no role is asked for again.** What
fails is not kept, and is asked for again at the next use: a role is assumed once more if no session
could be opened with what it lent.
-/

namespace StateOwnership.Client

/-! ## 1. Uses of a client -/

inductive Request where
  | connect (service : Service)
  | identity
  | validate
  deriving DecidableEq

inductive Reply where
  | connection (connection : Connection)
  | identity (arn : Text)
  deriving DecidableEq

/-- A use of a client, with the answers that the services give at that time. -/
structure Use where
  cloud : Cloud
  request : Request

def Request.service : Request → Service
  | .connect service => service
  | .identity | .validate => .sts

def Request.step (cloud : Cloud) (client : Client) : Request → Step Reply
  | .connect service => return .connection (← Client.connect cloud client service)
  | .identity => return .identity (← callerIdentity cloud client)
  | .validate => return .identity (← validateCredentials cloud client)

def Request.exchanges (cloud : Cloud) (client : Client) (s : State) : Request → List Exchange
  | .connect service => connectExchanges cloud client service s
  | .identity | .validate => identityExchanges cloud client s

/-- A use of a client that has taken place: what was asked, what was returned, and the state then. -/
structure Turn where
  use : Use
  exchanges : List Exchange
  reply : Except Failure Reply
  after : State

def Use.turn (client : Client) (use : Use) (s : State) : Turn :=
  ⟨use, use.request.exchanges use.cloud client s,
    ((use.request.step use.cloud client).run.run s).1,
    ((use.request.step use.cloud client).run.run s).2⟩

def turns (client : Client) : List Use → State → List Turn
  | [], _ => []
  | use :: rest, s => use.turn client s :: turns client rest (use.turn client s).after

def stateAfter (client : Client) : List Use → State → State
  | [], s => s
  | use :: rest, s => stateAfter client rest (use.turn client s).after

/-- All that was asked in several uses. -/
def transcript (turns : List Turn) : List Exchange :=
  turns.flatMap (·.exchanges)

/-! ## 2. What a run establishes -/

def Exchange.AnsweredBy (cloud : Cloud) : Exchange → Prop
  | .session request answer => answer = cloud.session request
  | .connection asked refusal => refusal = cloud.connection asked
  | .role channel request answer => answer = cloud.assumeRole channel request
  | .identity channel answer => answer = cloud.identity channel

/-- What a use comes to: what it returns is held from then on, and if it fails, no connection to its
service is held, unless the use was for the identity and only the question failed. -/
structure Takes (client : Client) (wanted : RoleRequest) (s : State) (turn : Turn) : Prop where
  grows : Grows client wanted s turn.exchanges turn.after
  inRole : turn.after.InRole
  answered : ∀ x ∈ turn.exchanges, x.AnsweredBy turn.use.cloud
  connection : ∀ connection, turn.reply = .ok (.connection connection) →
    turn.use.request = .connect connection.service ∧
      Entries.get? connection.service turn.after.connections = some connection
  identity : ∀ arn, turn.reply = .ok (.identity arn) →
    ∃ connection, Entries.get? .sts turn.after.connections = some connection ∧
      .identity connection (.ok arn) ∈ turn.exchanges
  failure : ∀ failure, turn.reply = .error failure →
    Entries.get? turn.use.request.service turn.after.connections = none ∨
      ∃ connection e, Entries.get? turn.use.request.service turn.after.connections =
          some connection ∧ .identity connection (.error e) ∈ turn.exchanges

section Runs

variable {cloud : Cloud} {client : Client} {roleArn : Text} {s : State} {x : Exchange}

theorem answered_sessionExchanges (hx : x ∈ sessionExchanges cloud client) :
    x.AnsweredBy cloud := by
  have hrole (roleArn : Text) (base : Session)
      (hx : x ∈ roleExchanges cloud client roleArn base) : x.AnsweredBy cloud := by
    unfold roleExchanges at hx
    rcases List.mem_cons.mp hx with rfl | hx
    · rfl
    split at hx
    · exact absurd hx List.not_mem_nil
    rcases List.mem_cons.mp hx with rfl | hx
    · rfl
    split at hx
    · exact absurd hx List.not_mem_nil
    · rw [List.mem_singleton.mp hx]
      rfl
  unfold sessionExchanges at hx
  rcases List.mem_cons.mp hx with rfl | hx
  · rfl
  split at hx
  · exact hrole _ _ hx
  · exact absurd hx List.not_mem_nil

theorem answered_connectExchanges {service : Service}
    (hx : x ∈ connectExchanges cloud client service s) : x.AnsweredBy cloud := by
  unfold connectExchanges at hx
  split at hx
  · exact absurd hx List.not_mem_nil
  rcases List.mem_append.mp hx with hx | hx
  · split at hx
    · exact answered_sessionExchanges hx
    · exact absurd hx List.not_mem_nil
  · split at hx
    · rw [List.mem_singleton.mp hx]
      rfl
    · exact absurd hx List.not_mem_nil

theorem answered_identityExchanges (hx : x ∈ identityExchanges cloud client s) :
    x.AnsweredBy cloud := by
  unfold identityExchanges at hx
  rcases List.mem_append.mp hx with hx | hx
  · exact answered_connectExchanges hx
  · split at hx
    · rw [List.mem_singleton.mp hx]
      rfl
    · exact absurd hx List.not_mem_nil

theorem run_reply {α : Type} (step : Step α) (reply : α → Reply) (s : State) :
    (do return reply (← step) : Step Reply).run.run s =
      ((step.run.run s).1.map reply, (step.run.run s).2) := by
  rw [run_bind]
  rcases step.run.run s with ⟨failure | a, t⟩ <;> rfl

-- A use that is answered with an identity.
theorem takes_of_identifies {request : Request} {step : Step Text}
    (hservice : request.service = .sts)
    (hexchanges : request.exchanges cloud client s = identityExchanges cloud client s)
    (hstep : request.step cloud client = do return .identity (← step))
    (h : Identifies client (client.roleRequest roleArn) s (identityExchanges cloud client s)
      (step.run.run s).1 (step.run.run s).2) :
    Takes client (client.roleRequest roleArn) s (Use.turn client ⟨cloud, request⟩ s) := by
  rw [Use.turn, hexchanges, hstep, run_reply]
  rcases hrun : step.run.run s with ⟨failure | arn, t⟩
  all_goals rw [hrun] at h
  · refine ⟨h.grows, h.inRole, fun x => answered_identityExchanges, nofun, nofun, ?_⟩
    rintro _ ⟨⟩
    rw [hservice]
    exact h.kept failure rfl
  · refine ⟨h.grows, h.inRole, fun x => answered_identityExchanges, nofun, ?_, nofun⟩
    rintro _ ⟨⟩
    exact h.held arn rfl

theorem turn_takes (use : Use) (hrole : client.roleArn = some roleArn) (hs : s.InRole) :
    Takes client (client.roleRequest roleArn) s (use.turn client s) := by
  obtain ⟨cloud, request⟩ := use
  cases request with
  | connect service =>
    have hconnects := connect_connects cloud service hrole hs
    rw [Use.turn, Request.step, run_reply]
    rcases hrun : (connect cloud client service).run.run s with ⟨failure | connection, t⟩
    · rw [hrun] at hconnects
      refine ⟨hconnects.grows, hconnects.inRole, fun x => answered_connectExchanges, nofun, nofun,
        ?_⟩
      exact fun _ _ => .inl (hconnects.none failure rfl)
    · rw [hrun] at hconnects
      have hheld := hconnects.held connection rfl
      obtain ⟨rfl, -⟩ := hconnects.inRole.within service connection hheld
      refine ⟨hconnects.grows, hconnects.inRole, fun x => answered_connectExchanges, ?_, nofun,
        nofun⟩
      rintro _ ⟨⟩
      exact ⟨rfl, hheld⟩
  | identity => exact takes_of_identifies rfl rfl rfl (identifies_callerIdentity cloud hrole hs)
  | validate =>
    exact takes_of_identifies rfl rfl rfl (identifies_validateCredentials cloud hrole hs)

structure Served (client : Client) (wanted : RoleRequest) (s : State) (uses : List Use) :
    Prop where
  grows : Grows client wanted s (transcript (turns client uses s)) (stateAfter client uses s)
  inRole : (stateAfter client uses s).InRole
  takes : ∀ turn ∈ turns client uses s, ∃ before, Takes client wanted before turn ∧
    ∀ service connection, Entries.get? service turn.after.connections = some connection →
      Entries.get? service (stateAfter client uses s).connections = some connection

-- Use after use, what is held grows.
theorem served_of_role (hrole : client.roleArn = some roleArn) (uses : List Use)
    (hs : s.InRole) : Served client (client.roleRequest roleArn) s uses := by
  induction uses generalizing s with
  | nil => exact ⟨.refl s, hs, fun _ h => absurd h List.not_mem_nil⟩
  | cons use rest ih =>
    have hfirst := turn_takes use hrole hs
    have hrest := ih hfirst.inRole
    refine ⟨hfirst.grows.trans hrest.grows, hrest.inRole, fun turn hturn => ?_⟩
    rcases List.mem_cons.mp hturn with rfl | hturn
    · exact ⟨s, hfirst, fun service connection => hrest.grows.connection_kept⟩
    · exact hrest.takes turn hturn

end Runs

/-! ## 3. Clients that have a role -/

/-- What holds of a client in a role that was used several times, of the state that it is in then and
of the calls that were noted before. -/
structure RoleKept (client : Client) (roleArn : Text) (calls : List Call) (turns : List Turn)
    (final : State) : Prop where
  /-- What was asked is what was noted. -/
  calls_eq : final.calls = calls ++ (transcript turns).map (·.call client)
  /-- The answers are those of the services. -/
  answered : ∀ turn ∈ turns, ∀ x ∈ turn.exchanges, x.AnsweredBy turn.use.cloud
  /-- A connection that is returned is held from then on, and made in the session that is held, which
  was opened with what the role lent. -/
  returned : ∀ turn ∈ turns, ∀ connection, turn.reply = .ok (.connection connection) →
    turn.use.request = .connect connection.service ∧
      Entries.get? connection.service final.connections = some connection ∧
      final.session = some connection.session ∧
      ∃ credentials channel, connection.session.request.credentials = some credentials ∧
        .role channel (client.roleRequest roleArn) (.ok credentials) ∈ transcript turns
  /-- An identity is asked for over the connection that is held. -/
  identified : ∀ turn ∈ turns, ∀ arn, turn.reply = .ok (.identity arn) →
    ∃ connection, Entries.get? .sts final.connections = some connection ∧
      .identity connection (.ok arn) ∈ turn.exchanges
  /-- One session in the role is opened at most, and it is held if and only if it was. -/
  session : (transcript turns).filterMap (·.opened?) = final.session.toList
  /-- One connection to a service is made in the role at most, and it is held if and only if it
  was. -/
  made : ∀ service, (transcript turns).filterMap (·.made? service) =
    (Entries.get? service final.connections).toList
  /-- What the role lends is what sessions are asked for with, in order. -/
  lent : (transcript turns).filterMap (·.lent? (client.roleRequest roleArn)) =
    (transcript turns).filterMap (·.spent?)
  /-- The role lends once for the session that is held, and once every time that none is opened. -/
  lends : ((transcript turns).filterMap (·.lent? (client.roleRequest roleArn))).length =
    final.session.toList.length + ((transcript turns).filterMap (·.wasted?)).length
  /-- Nothing is asked for again once it is established. -/
  order : (transcript turns).Pairwise Exchange.Precedes
  /-- What fails leaves no connection to its service, unless the connection is held and only the
  question for the identity failed. -/
  failed : ∀ turn ∈ turns, ∀ failure, turn.reply = .error failure →
    Entries.get? turn.use.request.service turn.after.connections = none ∨
      ∃ connection e, Entries.get? turn.use.request.service turn.after.connections =
          some connection ∧ .identity connection (.error e) ∈ turn.exchanges

section Roles

variable {client : Client} {roleArn : Text} {exchanges : List Exchange} {session : Session}

-- Credentials with which a session is asked for open one or are wasted.
theorem length_spent (exchanges : List Exchange) :
    (exchanges.filterMap (·.spent?)).length =
      (exchanges.filterMap (·.opened?)).length + (exchanges.filterMap (·.wasted?)).length := by
  have hcons {α : Type} (f : Exchange → Option α) (x : Exchange) (rest : List Exchange) :
      ((x :: rest).filterMap f).length = (f x).toList.length + (rest.filterMap f).length := by
    cases hx : f x <;> simp [hx, Nat.add_comm]
  have hone (x : Exchange) : x.spent?.toList.length =
      x.opened?.toList.length + x.wasted?.toList.length := by
    cases x with
    | session request answer =>
      obtain ⟨region, credentials⟩ := request
      cases answer <;> cases credentials <;> rfl
    | connection asked refusal => rfl
    | role channel request answer => rfl
    | identity channel answer => rfl
  induction exchanges with
  | nil => rfl
  | cons x rest ih =>
    rw [hcons, hcons, hcons, ih, hone]
    omega

-- A session in a role was asked for with credentials.
theorem spent_of_opened (h : session ∈ exchanges.filterMap (·.opened?)) :
    ∃ credentials ∈ exchanges.filterMap (·.spent?),
      session.request.credentials = some credentials := by
  obtain ⟨x, hx, hopened⟩ := List.mem_filterMap.mp h
  unfold Exchange.opened? at hopened
  split at hopened
  · split at hopened
    · rename_i request region hcredentials
      obtain ⟨credentials, hcredentials⟩ := Option.isSome_iff_exists.mp hcredentials
      obtain rfl := Option.some.inj hopened
      exact ⟨credentials, List.mem_filterMap.mpr ⟨_, hx, hcredentials⟩, hcredentials⟩
    · simp at hopened
  · simp at hopened

theorem role_of_lent {wanted : RoleRequest} {credentials : Credentials}
    (h : credentials ∈ exchanges.filterMap (·.lent? wanted)) :
    ∃ channel, .role channel wanted (.ok credentials) ∈ exchanges := by
  obtain ⟨x, hx, hlent⟩ := List.mem_filterMap.mp h
  unfold Exchange.lent? at hlent
  split at hlent
  · split at hlent
    · rename_i channel request found hrequest
      obtain rfl := Option.some.inj hlent
      exact ⟨channel, hrequest ▸ hx⟩
    · simp at hlent
  · simp at hlent

/-- **A client that has a role is never used without it**: whatever it returns was made in the one
session that it opened with what the role lent. The role lends again only if no session could be
opened with what it lent before, and once the session or a connection is there, it is not asked for
again. What fails is not kept. -/
theorem role_kept (hrole : client.roleArn = some roleArn) (calls : List Call) (uses : List Use) :
    RoleKept client roleArn calls (turns client uses (.fresh calls))
      (stateAfter client uses (.fresh calls)) := by
  have hfresh : (State.fresh calls).InRole := ⟨nofun, nofun⟩
  obtain ⟨hgrows, hinRole, htakes⟩ := served_of_role hrole uses hfresh
  generalize stateAfter client uses (.fresh calls) = final at *
  generalize turns client uses (.fresh calls) = turns at *
  have hsession : (transcript turns).filterMap (·.opened?) = final.session.toList :=
    hgrows.session_eq
  refine ⟨hgrows.calls_eq, ?_, ?_, ?_, hsession, hgrows.connections_eq, hgrows.lent_eq, ?_,
    hgrows.order, ?_⟩
  · intro turn hturn
    obtain ⟨before, htake, -⟩ := htakes turn hturn
    exact htake.answered
  · intro turn hturn connection hreply
    obtain ⟨before, htake, hkept⟩ := htakes turn hturn
    obtain ⟨hrequest, hthen⟩ := htake.connection connection hreply
    have hheld := hkept _ _ hthen
    have hwithin := (hinRole.within _ _ hheld).2
    have hopened : connection.session ∈ (transcript turns).filterMap (·.opened?) := by
      simp [hsession, hwithin]
    obtain ⟨credentials, hspent, hcredentials⟩ := spent_of_opened hopened
    rw [← hgrows.lent_eq] at hspent
    obtain ⟨channel, hlent⟩ := role_of_lent hspent
    exact ⟨hrequest, hheld, hwithin, credentials, channel, hcredentials, hlent⟩
  · intro turn hturn arn hreply
    obtain ⟨before, htake, hkept⟩ := htakes turn hturn
    obtain ⟨connection, hheld, hidentity⟩ := htake.identity arn hreply
    exact ⟨connection, hkept _ _ hheld, hidentity⟩
  · rw [hgrows.lent_eq, length_spent, hsession]
  · intro turn hturn
    obtain ⟨before, htake, -⟩ := htakes turn hturn
    exact htake.failure

end Roles

/-- The services lend every role, connect whoever asks, and know nobody. A session in a role may be
refused. -/
def lendingCloud (refused : Bool) : Cloud where
  session request :=
    if refused && request.credentials.isSome then .error .noCredentials else .ok request.region
  connection _ := none
  assumeRole _ _ := .ok ⟨"k", "s", "t"⟩
  identity _ := .error .noCredentials
  transfer _ _ := ⟨[], none, false, 0⟩

def roleClient : Client :=
  make [] "r" [] []

/-- The session in the role is refused once, the connections are made then, and the question for the
identity fails. -/
theorem role_kept_after_refusal :
    let uses := [⟨lendingCloud true, .connect .s3⟩, ⟨lendingCloud false, .connect .s3⟩,
      ⟨lendingCloud false, .connect .s3⟩, ⟨lendingCloud false, .validate⟩]
    let taken := turns roleClient uses (.fresh [])
    roleClient.roleArn = some "r" ∧
      RoleKept roleClient "r" [] taken (stateAfter roleClient uses (.fresh [])) ∧
      taken.map (·.reply.toBool) = [false, true, true, false] ∧
      (transcript taken).length = 11 := by
  intro uses taken
  have hrole : roleClient.roleArn = some "r" := rfl
  exact ⟨hrole, role_kept hrole [] uses, by decide +kernel, by decide +kernel⟩

/-- A role is assumed again if a session in it was refused, and a question for the identity that fails
leaves the connection that it was asked over. -/
theorem role_assumed_again :
    let refused := turns roleClient [⟨lendingCloud true, .connect .s3⟩,
      ⟨lendingCloud false, .connect .s3⟩] (.fresh [])
    let asked := Use.turn roleClient ⟨lendingCloud false, .identity⟩ (.fresh [])
    ((transcript refused).filterMap (·.lent? (roleClient.roleRequest "r"))).length = 2 ∧
      asked.reply.toBool = false ∧
      (Entries.get? .sts asked.after.connections).isSome = true := by
  decide +kernel

end StateOwnership.Client
