import PipeLang.Proofs.Effects
import PipeLang.Proofs.Requests
import PipeLang.Workbench

namespace PipeLang

/-! # Clients of the workbench

A client uses a workbench one operation after the other and keeps the values that it makes or
gets back. It hands them in again, alone or in tuples, and it may look into the scope that a
lambda among them captured. Whether an operation succeeds or fails, what it did stays done.
-/

structure Client where
  bench : Workbench
  held : List Value

namespace Client

/-- What a client can do. Values are chosen by their places among those that the client keeps. -/
inductive Action where
  | create
  | child (parent : Nat)
  /-- Adds a copy of the scope that a lambda captured. -/
  | reopen (lambda : Nat)
  | make (operand : Operand)
  | group (chosen : List Nat)
  | define (scope : Nat) (name : String) (chosen : List Nat)
  | replace (scope : Nat) (name : String) (chosen : List Nat)
  | evaluate (steps scope : Nat) (expression : Expression)
  | serve (steps scope : Nat) (request : Request)
  | call (steps scope : Nat) (name : String) (location : Location) (chosen : List Nat)
  | callLambda (steps : Nat) (name : String) (location : Location) (lambda : Nat)
      (chosen : List Nat)
  /-- Lets all that follows write to another sink. -/
  | redirect (sink : Sink)

def start (sink : Sink) : Client :=
  ⟨.start sink, []⟩

/-- The values at the chosen places. -/
def pick (client : Client) (chosen : List Nat) : List Value :=
  chosen.filterMap fun place => client.held[place]?

def lambda? (client : Client) (place : Nat) : Option Closure :=
  match client.held[place]? with
  | some (.lambda closure) => some closure
  | _ => none

/-- Keeps the values and the workbench that an operation leaves behind, if it comes to an end. -/
def settle (client : Client) : Outcome Error Workbench → Option Client
  | .returned values bench => some ⟨bench, client.held ++ values⟩
  | .failed _ bench => some { client with bench }
  | .outOfSteps => none

/-- The client after an action; there is none if the action does not come to an end. What needs
a lambda or a variable that is not there does nothing. -/
def perform (client : Client) : Action → Option Client
  | .create => some { client with bench := client.bench.addEmpty.2 }
  | .child parent => some { client with bench := (client.bench.addChild parent).2 }
  | .reopen lambda =>
      match client.lambda? lambda with
      | some closure => some { client with bench := (client.bench.addScope closure.scope).2 }
      | none => some client
  | .make operand =>
      let (values, bench) := client.bench.resolve operand
      some ⟨bench, client.held ++ values⟩
  | .group chosen => some { client with held := client.held ++ [.tuple (client.pick chosen)] }
  | .define scope name chosen =>
      some { client with bench := client.bench.define scope name (client.pick chosen) }
  | .replace scope name chosen =>
      match client.bench.replace? scope name (client.pick chosen) with
      | some bench => some { client with bench }
      | none => some client
  | .evaluate steps scope expression => client.settle (client.bench.evaluate steps scope expression)
  | .serve steps scope request =>
      client.settle <|
        (Session.serve steps request (client.bench.frame scope)).mapState
          (client.bench.update scope)
  | .call steps scope name location chosen =>
      client.settle (client.bench.call steps scope name location (client.pick chosen))
  | .callLambda steps name location lambda chosen =>
      match client.lambda? lambda with
      | some closure =>
          client.settle (client.bench.callLambda steps name location closure (client.pick chosen))
      | none => some client
  | .redirect sink =>
      some { client with
        bench := { client.bench with machine := { client.bench.machine with sink } } }

def operate (client : Client) : List Action → Option Client
  | [] => some client
  | action :: others => (client.perform action).bind fun next => next.operate others

/-- The scope is on the workbench, or was captured by a lambda that the client or a variable of
such a scope holds. -/
def Live (client : Client) (scope : Scope) : Prop :=
  ∃ root, (root ∈ client.bench.scopes ∨
      ∃ value ∈ client.held, ∃ closure, value.Holds closure ∧ closure.scope = root) ∧
    root.Reaches client.bench.machine.heap scope

end Client

mutual

/-- The bodies of the lambdas in an operand. -/
def Operand.bodies : Operand → List Expression
  | .tuple elements => bodiesOfEach elements
  | .lambda _ _ body => [body]
  | _ => []

def Operand.bodiesOfEach : List Operand → List Expression
  | [] => []
  | operand :: others => operand.bodies ++ bodiesOfEach others

end

/-- The policy allows what a request evaluates. -/
def Request.Within (policy : Policy) : Request → Prop
  | .source text => ∀ program, Expression.ofSource text = .ok program → policy.Runs program
  | .file contents? => ∀ text program, contents?.bind Text.decode? = some text →
      Expression.ofSource text = .ok program → policy.Runs program

/-- The policy allows what an action evaluates and what it overwrites. -/
def Client.Action.Within (policy : Policy) : Client.Action → Prop
  | .make operand => ∀ body ∈ operand.bodies, policy.Runs body
  | .replace _ name _ => policy.Mutates name
  | .evaluate _ _ expression => policy.Runs expression
  | .serve _ _ request => request.Within policy
  | _ => True

theorem Client.Action.Within.mono {action : Client.Action} {policy later : Policy}
    (within : action.Within policy) (extended : policy.Extends later) : action.Within later := by
  cases action with
  | make operand => exact fun body member => (within body member).mono extended
  | replace number name chosen => exact Policy.Mutates.mono within extended
  | evaluate steps number expression => exact Policy.Runs.mono within extended
  | serve steps number request =>
      cases request with
      | source text => exact fun program parsed => (within program parsed).mono extended
      | file contents? =>
          intro text program decoded parsed
          exact (within text program decoded parsed).mono extended
  | _ => trivial

namespace World

variable {world later : World} {bench : Workbench} {client next : Client} {number steps : Nat}
  {scope : Scope} {frame : Frame} {machine : Machine} {name : String} {location : Location}
  {values arguments : List Value}

structure Supports (world : World) (bench : Workbench) : Prop where
  drives : world.Drives bench.machine
  scopes : ∀ scope ∈ bench.scopes, world.policy.AdmitsScope scope

structure Serves (world : World) (client : Client) : Prop where
  bench : world.Supports client.bench
  held : world.policy.AdmitsValues client.held

theorem Supports.admits (supports : world.Supports bench) (number : Nat) :
    world.policy.AdmitsScope (bench.scope number) := by
  rw [Workbench.scope, Array.getD_eq_getD_getElem?]
  cases found : bench.scopes[number]? with
  | none => exact .empty
  | some scope => exact supports.scopes scope (Array.mem_of_getElem? found)

theorem Supports.carries (supports : world.Supports bench) (number : Nat) :
    world.Carries (bench.frame number) :=
  ⟨supports.drives, supports.admits number⟩

theorem Supports.resume (supports : world.Supports bench) (evolves : world.Evolves later)
    (drives : later.Drives machine) : later.Supports { bench with machine } :=
  ⟨drives, fun scope member => (supports.scopes scope member).mono evolves.extends⟩

theorem Supports.update (supports : world.Supports bench) (evolves : world.Evolves later)
    (carries : later.Carries frame) : later.Supports (bench.update number frame) := by
  constructor
  · exact carries.heap
  · intro scope member
    rcases Array.mem_or_eq_of_mem_setIfInBounds member with old | rfl
    · exact (supports.scopes scope old).mono evolves.extends
    · exact carries.scope

theorem Supports.add (supports : world.Supports bench)
    (admitted : world.policy.AdmitsScope scope) : world.Supports (bench.addScope scope).2 := by
  constructor
  · exact supports.drives
  · intro other member
    rcases Array.mem_push.mp member with old | rfl
    · exact supports.scopes other old
    · exact admitted

theorem leads_evaluate {expression : Expression} (supports : world.Supports bench)
    (runs : world.policy.Runs expression) :
    world.Leads Supports (bench.evaluate steps number expression) := by
  have evaluated := evaluate_acts steps world expression _ runs (supports.carries number)
  apply Leads.mapFailure
  exact evaluated.mapState fun later frame evolves carries => supports.update evolves carries

theorem leads_call (supports : world.Supports bench)
    (supplied : world.policy.AdmitsValues arguments) :
    world.Leads Supports (bench.call steps number name location arguments) := by
  apply Leads.mapFailure
  exact (leads_callNamed (evaluate_acts steps) (supports.admits number) supplied
    supports.drives).mapState fun later machine evolves drives => supports.resume evolves drives

theorem leads_callLambda {closure : Closure} (supports : world.Supports bench)
    (admitted : world.policy.AdmitsClosure closure)
    (supplied : world.policy.AdmitsValues arguments) :
    world.Leads Supports (bench.callLambda steps name location closure arguments) := by
  apply Leads.mapFailure
  exact (leads_callClosure (evaluate_acts steps) admitted supplied
    supports.drives).mapState fun later machine evolves drives => supports.resume evolves drives

theorem leads_run {source : String}
    (runs : ∀ program, Expression.ofSource source = .ok program → world.policy.Runs program)
    (carries : world.Carries frame) : world.Leads Carries (Session.run steps source frame) := by
  unfold Session.run
  split
  next => exact leads_failed carries
  next program parsed =>
    exact Leads.mapFailure (evaluate_acts steps world program frame (runs program parsed) carries)

theorem leads_serve {request : Request} (within : request.Within world.policy)
    (carries : world.Carries frame) : world.Leads Carries (Session.serve steps request frame) := by
  cases request with
  | source text => exact leads_run within carries
  | file contents? =>
      simp only [Session.serve, Session.runFile]
      split
      next => exact leads_failed carries
      next text decoded => exact leads_run (fun program => within text program decoded) carries

mutual

theorem Supports.resolve {world : World} {bench : Workbench}
    (supports : world.Supports bench) (operand : Operand)
    (runs : ∀ body ∈ operand.bodies, world.policy.Runs body) :
    ∃ later, world.Evolves later ∧ later.policy.AdmitsValues (bench.resolve operand).1 ∧
      later.Supports (bench.resolve operand).2 := by
  cases operand with
  | number | string | boolean =>
      refine ⟨world, .refl world, .of_plain ?_, supports⟩
      intro value member closure holds
      cases List.mem_singleton.mp member
      cases holds
  | tuple elements =>
      obtain ⟨later, evolves, admitted, ended⟩ := supports.resolveAll elements runs
      exact ⟨later, evolves, admitted.tuple, ended⟩
  | lambda parameters number body =>
      have step := @Step.close world
      have closure : world.policy.AdmitsClosure ((bench.frame number).close parameters body).1 :=
        ⟨runs body (List.mem_singleton_self body), supports.admits number⟩
      have made := (supports.carries number).close parameters body
      exact ⟨world.close, step.evolves, .lambda (closure.mono step.extends),
        supports.resume step.evolves made.heap⟩
  | variableValues number name =>
      refine ⟨world, .refl world, ?_, supports⟩
      simp only [Workbench.resolve, Workbench.get?, Workbench.cell?]
      cases bound : (bench.scope number).get? name with
      | none => exact .nil
      | some cell => exact supports.drives.contents (supports.admits number name cell bound)

theorem Supports.resolveAll {world : World} {bench : Workbench}
    (supports : world.Supports bench) (operands : List Operand)
    (runs : ∀ body ∈ Operand.bodiesOfEach operands, world.policy.Runs body) :
    ∃ later, world.Evolves later ∧ later.policy.AdmitsValues (bench.resolveAll operands).1 ∧
      later.Supports (bench.resolveAll operands).2 := by
  cases operands with
  | nil => exact ⟨world, .refl world, .nil, supports⟩
  | cons operand others =>
      obtain ⟨middle, evolves, admitted, halfway⟩ :=
        supports.resolve operand fun body member => runs body (List.mem_append_left _ member)
      obtain ⟨later, further, more, ended⟩ :=
        halfway.resolveAll others fun body member =>
          (runs body (List.mem_append_right _ member)).mono evolves.extends
      exact ⟨later, evolves.trans further, (admitted.mono further.extends).append more, ended⟩

end

theorem Serves.pick (serves : world.Serves client) (chosen : List Nat) :
    world.policy.AdmitsValues (client.pick chosen) := by
  intro value member
  obtain ⟨place, _, found⟩ := List.mem_filterMap.mp member
  exact serves.held value (List.mem_of_getElem? found)

theorem Serves.lambda {closure : Closure} {place : Nat} (serves : world.Serves client)
    (found : client.lambda? place = some closure) : world.policy.AdmitsClosure closure := by
  unfold Client.lambda? at found
  split at found <;> cases found
  next present => exact serves.held.closure (List.mem_of_getElem? present)

theorem Serves.settle {outcome : Outcome Error Workbench} (serves : world.Serves client)
    (leads : world.Leads Supports outcome) (settled : client.settle outcome = some next) :
    ∃ later, world.Evolves later ∧ later.Serves next := by
  cases outcome with
  | returned values bench =>
      cases settled
      obtain ⟨later, evolves, admitted, supports⟩ := leads
      exact ⟨later, evolves, supports, (serves.held.mono evolves.extends).append admitted⟩
  | failed error bench =>
      cases settled
      obtain ⟨later, evolves, supports⟩ := leads
      exact ⟨later, evolves, supports, serves.held.mono evolves.extends⟩
  | outOfSteps => cases settled

theorem Serves.define (serves : world.Serves client) (number : Nat) (name : String)
    (supplied : world.policy.AdmitsValues values) :
    (world.define name supplied).Serves
      { client with bench := client.bench.define number name values } := by
  have step := Step.define name supplied
  have carries := (serves.bench.carries number).define name supplied
  exact ⟨serves.bench.update step.evolves carries, serves.held.mono step.extends⟩

theorem Serves.replace {bench : Workbench} (serves : world.Serves client)
    (mutates : world.policy.Mutates name) (supplied : world.policy.AdmitsValues values)
    (replaced : client.bench.replace? number name values = some bench) :
    ∃ later, world.Evolves later ∧ later.Serves { client with bench } := by
  obtain ⟨cell, bound, rfl⟩ := Option.map_eq_some_iff.mp replaced
  have start := serves.bench.carries number
  have step := Step.write mutates (start.scope name cell bound) supplied
  have carries := start.write cell supplied
  exact ⟨_, step.evolves, serves.bench.update step.evolves carries, serves.held⟩

/-- An action of a client has no effects on a world but those that the policy allows. -/
theorem Serves.perform {action : Client.Action} (serves : world.Serves client)
    (within : action.Within world.policy) (performed : client.perform action = some next) :
    ∃ later, world.Evolves later ∧ later.Serves next := by
  have stay {bench : Workbench} (supports : world.Supports bench) :
      ∃ later, world.Evolves later ∧ later.Serves { client with bench } :=
    ⟨world, .refl world, supports, serves.held⟩
  cases action with
  | create =>
      cases performed
      exact stay (serves.bench.add .empty)
  | child parent =>
      cases performed
      exact stay (serves.bench.add (serves.bench.admits parent))
  | reopen lambda =>
      simp only [Client.perform] at performed
      split at performed <;> cases performed
      next closure found => exact stay (serves.bench.add (serves.lambda found).2)
      next => exact stay serves.bench
  | make operand =>
      cases performed
      obtain ⟨later, evolves, admitted, supports⟩ := serves.bench.resolve operand within
      exact ⟨later, evolves, supports, (serves.held.mono evolves.extends).append admitted⟩
  | group chosen =>
      cases performed
      exact ⟨world, .refl world, serves.bench, serves.held.append (serves.pick chosen).tuple⟩
  | define number name chosen =>
      cases performed
      have supplied := serves.pick chosen
      exact ⟨_, (Step.define name supplied).evolves, serves.define number name supplied⟩
  | replace number name chosen =>
      simp only [Client.perform] at performed
      split at performed <;> cases performed
      next bench replaced => exact serves.replace within (serves.pick chosen) replaced
      next => exact stay serves.bench
  | evaluate steps number expression =>
      exact serves.settle (leads_evaluate serves.bench within) performed
  | serve steps number request =>
      apply serves.settle _ performed
      exact (leads_serve within (serves.bench.carries number)).mapState
        fun later frame evolves carries => serves.bench.update evolves carries
  | call steps number name location chosen =>
      exact serves.settle (leads_call serves.bench (serves.pick chosen)) performed
  | callLambda steps name location lambda chosen =>
      simp only [Client.perform] at performed
      split at performed
      next closure found =>
        apply serves.settle _ performed
        exact leads_callLambda serves.bench (serves.lambda found) (serves.pick chosen)
      next =>
        cases performed
        exact stay serves.bench
  | redirect sink =>
      cases performed
      exact stay ⟨serves.bench.drives, serves.bench.scopes⟩

theorem Serves.operate {actions : List Client.Action} (serves : world.Serves client)
    (within : ∀ action ∈ actions, action.Within world.policy)
    (operated : client.operate actions = some next) :
    ∃ later, world.Evolves later ∧ later.Serves next := by
  induction actions generalizing world client with
  | nil =>
      cases operated
      exact ⟨world, .refl world, serves⟩
  | cons action others ih =>
      obtain ⟨middle, performed, rest⟩ := Option.bind_eq_some_iff.mp operated
      have first := within action (List.mem_cons_self ..)
      obtain ⟨halfway, evolves, served⟩ := serves.perform first performed
      obtain ⟨later, further, ended⟩ := ih served (fun other member =>
        (within other (List.mem_cons_of_mem action member)).mono evolves.extends) rest
      exact ⟨later, evolves.trans further, ended⟩

theorem Serves.live (serves : world.Serves client) (live : client.Live scope) :
    world.policy.AdmitsScope scope := by
  obtain ⟨root, origin, reached⟩ := live
  induction reached with
  | root =>
      rcases origin with present | ⟨value, member, closure, holds, rfl⟩
      · exact serves.bench.scopes root present
      · exact (serves.held value member closure holds).2
  | captured _ held ih =>
      obtain ⟨name, cell, value, bound, member, holds⟩ := held
      exact (serves.bench.drives.contents (ih name cell bound) value member _ holds).2

end World

end PipeLang
