import PipeLang.Proofs.Alike

namespace PipeLang

/-! # What builtin functions do

A builtin function reads its arguments once, and that settles what is left to do: to answer, to
write a line, or to call lambdas that are among the arguments. These jobs are done in the same way
for all functions, so a statement about calls of builtin functions has a case for each sort of job
and none for each function.
-/

/-- What a builtin function has to do once it has read its arguments. -/
inductive Job where
  | answer (result : Except RuntimeCause (List Value))
  | print (line : String)
  | repeatWhile (condition body : Closure)
  | runOnce (body : Closure)

/-- Does a job. A loop makes at most `rounds` rounds. -/
def Job.perform (run : Evaluator) (rounds : Nat) (location : Location) (machine : Machine) :
    Job → Outcome Fault Machine
  | .answer result => machine.answer location result
  | .print line => machine.print line
  | .repeatWhile condition body =>
      iterate location (callClosure run "condition" location condition [])
        (callClosure run "body" location body []) rounds [] machine
  | .runOnce body => (callClosure run "body" location body [] machine).mapValues fun _ => []

namespace Builtin

/-- The job of a function that reads its first argument and calls its second one. -/
def callback {Reading : Type} (name : String) (read : Value → Except RuntimeCause Reading)
    (act : Reading → Closure → Job) : List Value → Job
  | [first, second] =>
      match read first, second.asLambda with
      | .ok reading, .ok body => act reading body
      | .error cause, _ => .answer (.error cause)
      | .ok _, .error cause => .answer (.error cause)
  | arguments => .answer (.error (.arityMismatch name 2 arguments.length))

/-- The job of a function with the given arguments. -/
def job : Builtin → List Value → Job
  | .identity, arguments => .answer (.ok arguments)
  | .toText, arguments => .answer (.ok (arguments.map fun value => .string value.render))
  | .print, arguments => .print (Value.renderLine arguments)
  | .arithmetic operation, arguments => .answer (operation.apply arguments)
  | .comparison relation, arguments => .answer (relation.apply arguments)
  | .repeatWhile, arguments => callback "loop" Value.asLambda .repeatWhile arguments
  | .runWhen, arguments =>
      callback "if" Value.asBoolean
        (fun flag body => if flag then .runOnce body else .answer (.ok [])) arguments

end Builtin

theorem applyBuiltin_eq_perform (run : Evaluator) (rounds : Nat) (builtin : Builtin)
    (location : Location) (arguments : List Value) (machine : Machine) :
    applyBuiltin run rounds builtin location arguments machine =
      (builtin.job arguments).perform run rounds location machine := by
  cases builtin with
  | identity | toText | print | arithmetic | comparison => rfl
  | repeatWhile =>
      match arguments with
      | [condition, body] =>
          simp only [applyBuiltin, Builtin.job, Builtin.callback]
          cases condition.asLambda with
          | error cause => rfl
          | ok condition => cases body.asLambda <;> rfl
      | [] | [_] | _ :: _ :: _ :: _ => rfl
  | runWhen =>
      match arguments with
      | [flag, body] =>
          simp only [applyBuiltin, Builtin.job, Builtin.callback]
          cases flag.asBoolean with
          | error cause => rfl
          | ok flag => cases flag <;> cases body.asLambda <;> rfl
      | [] | [_] | _ :: _ :: _ :: _ => rfl

theorem Value.asNumber_error {value : Value} {cause : RuntimeCause}
    (failed : value.asNumber = .error cause) : ∃ found, cause = .typeMismatch .number found := by
  cases value <;> cases failed <;> exact ⟨_, rfl⟩

theorem Value.asBoolean_error {value : Value} {cause : RuntimeCause}
    (failed : value.asBoolean = .error cause) : ∃ found, cause = .typeMismatch .boolean found := by
  cases value <;> cases failed <;> exact ⟨_, rfl⟩

theorem Value.asLambda_error {value : Value} {cause : RuntimeCause}
    (failed : value.asLambda = .error cause) : ∃ found, cause = .typeMismatch .lambda found := by
  cases value <;> cases failed <;> exact ⟨_, rfl⟩

theorem Value.asLambda_ok {value : Value} {closure : Closure}
    (lambda : value.asLambda = .ok closure) : value = .lambda closure := by
  cases value <;> cases lambda
  rfl

theorem Value.asNumbers_error {values : List Value} {cause : RuntimeCause}
    (failed : Value.asNumbers values = .error cause) :
    ∃ found, cause = .typeMismatch .number found := by
  induction values with
  | nil => cases failed
  | cons value others ih =>
      cases first : value.asNumber with
      | error other =>
          simp only [asNumbers, first, Except.error.injEq] at failed
          exact failed ▸ asNumber_error first
      | ok number =>
          cases rest : asNumbers others with
          | error other =>
              simp only [asNumbers, first, rest, Except.error.injEq] at failed
              exact ih (failed ▸ rest)
          | ok numbers => simp [asNumbers, first, rest] at failed

theorem Arithmetic.apply_ok {operation : Arithmetic} {arguments values : List Value}
    (applied : operation.apply arguments = .ok values) : ∃ number, values = [.number number] := by
  unfold Arithmetic.apply at applied
  split at applied
  · cases applied
  · split at applied
    · cases applied
      exact ⟨_, rfl⟩
    · cases applied
      exact ⟨_, rfl⟩
    · cases applied

theorem Arithmetic.apply_error {operation : Arithmetic} {arguments : List Value}
    {cause : RuntimeCause} (failed : operation.apply arguments = .error cause) :
    (∃ found, cause = .typeMismatch .number found) ∨
      cause = .missingArguments operation.name 1 0 ∧ operation.neutral? = none := by
  unfold Arithmetic.apply at failed
  split at failed
  next other mismatch =>
    cases failed
    exact .inl (Value.asNumbers_error mismatch)
  next =>
    split at failed
    next => cases failed
    next => cases failed
    next noNeutral _ =>
      cases failed
      exact .inr ⟨rfl, noNeutral⟩

theorem Comparison.apply_ok {relation : Comparison} {arguments values : List Value}
    (applied : relation.apply arguments = .ok values) : ∃ answer, values = [.boolean answer] := by
  unfold Comparison.apply at applied
  split at applied
  · cases applied
  · split at applied
    · cases applied
    · cases applied
      exact ⟨_, rfl⟩

theorem Comparison.holdsBetween_error {relation : Comparison} {arguments : List Value}
    {cause : RuntimeCause} (failed : relation.holdsBetween arguments = .error cause) :
    ∃ found, cause = .typeMismatch .number found := by
  fun_induction holdsBetween relation arguments with
  | case1 left right others other mismatch =>
      cases failed
      exact Value.asNumber_error mismatch
  | case2 left right others number other mismatch _ =>
      cases failed
      exact Value.asNumber_error mismatch
  | case3 left right others first second _ _ _ ih => exact ih failed
  | case4 => cases failed
  | case5 => cases failed

theorem Comparison.apply_error {relation : Comparison} {arguments : List Value}
    {cause : RuntimeCause} (failed : relation.apply arguments = .error cause) :
    cause = .comparisonOperands ∨ ∃ found, cause = .typeMismatch .number found := by
  unfold Comparison.apply at failed
  split at failed
  next =>
    cases failed
    exact .inl rfl
  next =>
    split at failed
    next other mismatch =>
      cases failed
      exact .inr (holdsBetween_error mismatch)
    next => cases failed

namespace Builtin

/-- The function calls lambdas that it is given. -/
def CallsBack (builtin : Builtin) : Prop :=
  builtin = .repeatWhile ∨ builtin = .runWhen

/-- The errors with which the function rejects its arguments. -/
inductive Rejects : Builtin → RuntimeCause → Prop
  | notNumber {operation : Arithmetic} {found : Value.Kind} :
      Rejects (.arithmetic operation) (.typeMismatch .number found)
  | noArguments {operation : Arithmetic} (noNeutral : operation.neutral? = none) :
      Rejects (.arithmetic operation) (.missingArguments operation.name 1 0)
  | notComparable {relation : Comparison} {found : Value.Kind} :
      Rejects (.comparison relation) (.typeMismatch .number found)
  | noPair {relation : Comparison} : Rejects (.comparison relation) .comparisonOperands
  | miscounted {builtin : Builtin} {found : Nat} (callsBack : builtin.CallsBack) :
      Rejects builtin (.arityMismatch builtin.name 2 found)
  | mismatched {builtin : Builtin} {expected found : Value.Kind} (callsBack : builtin.CallsBack) :
      Rejects builtin (.typeMismatch expected found)

/-- The jobs that the function can get if only such lambdas are given to it. -/
inductive TakesOn (given : Closure → Prop) : Builtin → Job → Prop
  | answer {builtin : Builtin} {values : List Value} (direct : ¬ builtin.CallsBack)
      (held : ∀ value ∈ values, ∀ closure, value.Holds closure → given closure) :
      TakesOn given builtin (.answer (.ok values))
  | reject {builtin : Builtin} {cause : RuntimeCause} (rejects : builtin.Rejects cause) :
      TakesOn given builtin (.answer (.error cause))
  | print {line : String} : TakesOn given .print (.print line)
  | repeatWhile {condition body : Closure} (tested : given condition) (repeated : given body) :
      TakesOn given .repeatWhile (.repeatWhile condition body)
  | skip {body : Closure} (offered : given body) : TakesOn given .runWhen (.answer (.ok []))
  | runOnce {body : Closure} (called : given body) : TakesOn given .runWhen (.runOnce body)

variable {given : Closure → Prop} {builtin : Builtin} {arguments : List Value}

theorem callback_of_miscounted {Reading : Type} {name : String}
    {read : Value → Except RuntimeCause Reading} {act : Reading → Closure → Job}
    (miscounted : arguments.length ≠ 2) :
    callback name read act arguments =
      .answer (.error (.arityMismatch name 2 arguments.length)) := by
  match arguments with
  | [] | [_] | _ :: _ :: _ :: _ => rfl
  | [_, _] => exact absurd rfl miscounted

theorem takesOn_callback {Reading : Type} {read : Value → Except RuntimeCause Reading}
    {act : Reading → Closure → Job} (callsBack : builtin.CallsBack)
    (supplied : ∀ value ∈ arguments, ∀ closure, value.Holds closure → given closure)
    (mismatch : ∀ value cause, read value = .error cause →
      ∃ expected found, cause = .typeMismatch expected found)
    (acts : ∀ value ∈ arguments, ∀ reading body, read value = .ok reading → given body →
      builtin.TakesOn given (act reading body)) :
    builtin.TakesOn given (callback builtin.name read act arguments) := by
  unfold callback
  split
  next first second =>
    split
    next reading body taken lambda =>
      cases Value.asLambda_ok lambda
      exact acts first (by simp) reading body taken (supplied _ (by simp) body .lambda)
    next cause failed =>
      obtain ⟨expected, found, rfl⟩ := mismatch first cause failed
      exact .reject (.mismatched callsBack)
    next failed =>
      obtain ⟨found, rfl⟩ := Value.asLambda_error failed
      exact .reject (.mismatched callsBack)
  next => exact .reject (.miscounted callsBack)

/-- A function answers, rejects its arguments, writes a line or calls some of the lambdas that it
was given, and its answer holds no others. -/
theorem takesOn_job (builtin : Builtin)
    (supplied : ∀ value ∈ arguments, ∀ closure, value.Holds closure → given closure) :
    builtin.TakesOn given (builtin.job arguments) := by
  cases builtin with
  | identity => exact .answer nofun supplied
  | toText =>
      refine .answer nofun fun value member closure holds => ?_
      obtain ⟨argument, -, rfl⟩ := List.mem_map.mp member
      cases holds
  | print => exact .print
  | arithmetic operation =>
      simp only [job]
      cases applied : operation.apply arguments with
      | ok values =>
          obtain ⟨number, rfl⟩ := Arithmetic.apply_ok applied
          refine .answer nofun fun value member closure holds => ?_
          cases List.mem_singleton.mp member
          cases holds
      | error cause =>
          obtain ⟨found, rfl⟩ | ⟨rfl, noNeutral⟩ := Arithmetic.apply_error applied
          · exact .reject .notNumber
          · exact .reject (.noArguments noNeutral)
  | comparison relation =>
      simp only [job]
      cases applied : relation.apply arguments with
      | ok values =>
          obtain ⟨truth, rfl⟩ := Comparison.apply_ok applied
          refine .answer nofun fun value member closure holds => ?_
          cases List.mem_singleton.mp member
          cases holds
      | error cause =>
          obtain rfl | ⟨found, rfl⟩ := Comparison.apply_error applied
          · exact .reject .noPair
          · exact .reject .notComparable
  | repeatWhile =>
      refine takesOn_callback (.inl rfl) supplied
        (fun _ _ failed => ⟨_, Value.asLambda_error failed⟩)
        fun value member condition body lambda repeated => ?_
      cases Value.asLambda_ok lambda
      exact .repeatWhile (supplied _ member condition .lambda) repeated
  | runWhen =>
      refine takesOn_callback (.inr rfl) supplied
        (fun _ _ failed => ⟨_, Value.asBoolean_error failed⟩)
        fun value member flag body flagged called => ?_
      cases flag with
      | false => exact .skip called
      | true => exact .runOnce called

theorem job_of_miscounted (callsBack : builtin.CallsBack) (miscounted : arguments.length ≠ 2) :
    builtin.job arguments = .answer (.error (.arityMismatch builtin.name 2 arguments.length)) := by
  obtain rfl | rfl := callsBack
  · exact callback_of_miscounted miscounted
  · exact callback_of_miscounted miscounted

end Builtin

/-- Jobs that differ in their lambdas only, which correspond. -/
inductive Job.Alike (same : Closure → Closure → Prop) : Job → Job → Prop
  | answer {values others : List Value} (alike : PipeLang.Alike same values others) :
      Alike same (.answer (.ok values)) (.answer (.ok others))
  | reject (cause : RuntimeCause) : Alike same (.answer (.error cause)) (.answer (.error cause))
  | print (line : String) : Alike same (.print line) (.print line)
  | repeatWhile {condition body testing repeating : Closure} (tests : same condition testing)
      (repeats : same body repeating) :
      Alike same (.repeatWhile condition body) (.repeatWhile testing repeating)
  | runOnce {body other : Closure} (calls : same body other) :
      Alike same (.runOnce body) (.runOnce other)

namespace Builtin

variable {same : Closure → Closure → Prop} {arguments parameters : List Value}

theorem callback_alike {Reading : Type} {name : String} {read : Value → Except RuntimeCause Reading}
    {act : Reading → Closure → Job} (alike : Alike same arguments parameters)
    (acts : ∀ {value other : Value}, Alike same [value] [other] →
      (∃ cause, read value = .error cause ∧ read other = .error cause) ∨
        ∃ reading taken, read value = .ok reading ∧ read other = .ok taken ∧
          ∀ body twin, same body twin → (act reading body).Alike same (act taken twin)) :
    (callback name read act arguments).Alike same (callback name read act parameters) := by
  by_cases two : arguments.length = 2
  · match arguments, two with
    | [first, second], _ =>
        obtain ⟨head, next, rfl, front, back⟩ := alike.pair
        simp only [callback]
        obtain ⟨cause, failed, alsoFailed⟩ | ⟨reading, taken, found, alsoFound, acts⟩ := acts front
        · simp only [failed, alsoFailed]
          exact .reject cause
        obtain ⟨cause, failed, alsoFailed⟩ | ⟨body, twin, lambda, alsoLambda, twins⟩ :=
          back.asLambda
        · simp only [found, alsoFound, failed, alsoFailed]
          exact .reject cause
        · simp only [found, alsoFound, lambda, alsoLambda]
          exact acts body twin twins
  · have counts := alike.length_eq
    rw [callback_of_miscounted two, callback_of_miscounted (counts ▸ two), counts]
    exact .reject _

/-- A function does not tell corresponding lambdas with the same parameters from each other. -/
theorem job_alike (builtin : Builtin) (alike : Alike same arguments parameters)
    (shown : ∀ closure other, same closure other → closure.parameters = other.parameters) :
    (builtin.job arguments).Alike same (builtin.job parameters) := by
  have texts := alike.renderEach_eq shown
  cases builtin with
  | identity => exact .answer alike
  | toText =>
      have equal : arguments.map (fun value => Value.string value.render) =
          parameters.map fun value => .string value.render := by
        simpa [Value.renderEach_eq_map, Function.comp_def] using
          congrArg (List.map Value.string) texts
      simp only [job, equal]
      refine .answer (.refl fun value member closure holds => ?_)
      obtain ⟨parameter, -, rfl⟩ := List.mem_map.mp member
      cases holds
  | print =>
      simp only [job, Value.renderLine, texts]
      exact .print _
  | arithmetic operation =>
      simp only [job, alike.arithmetic_eq]
      cases applied : operation.apply parameters with
      | error cause => exact .reject cause
      | ok values =>
          obtain ⟨number, rfl⟩ := Arithmetic.apply_ok applied
          exact .answer (.number number .nil)
  | comparison relation =>
      simp only [job, alike.comparison_eq]
      cases applied : relation.apply parameters with
      | error cause => exact .reject cause
      | ok values =>
          obtain ⟨truth, rfl⟩ := Comparison.apply_ok applied
          exact .answer (.boolean truth .nil)
  | repeatWhile =>
      refine callback_alike alike fun conditions => ?_
      obtain failed | ⟨condition, testing, found, alsoFound, tests⟩ := conditions.asLambda
      · exact .inl failed
      · exact .inr ⟨condition, testing, found, alsoFound, fun _ _ => .repeatWhile tests⟩
  | runWhen =>
      refine callback_alike alike fun {value other} flags => ?_
      rw [flags.asBoolean_eq]
      cases other.asBoolean with
      | error cause => exact .inl ⟨cause, rfl, rfl⟩
      | ok flag =>
          refine .inr ⟨flag, flag, rfl, rfl, fun body twin twins => ?_⟩
          cases flag with
          | false => exact .answer .nil
          | true => exact .runOnce twins

end Builtin

end PipeLang
