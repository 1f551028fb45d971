import Mathlib.Data.Option.Basic
import PagedReport.Placeholder.Evaluation

/-!
# Pipes and nested calls

A stage behind a pipe is a call that has all stages before it, in parentheses, as its last argument.
A pipeline rewritten in this way at every depth has no pipe left and the same value.  The two look
helpers up and evaluate arguments in different orders: where one fails the other does too, but not
always for the same cause.
-/

namespace PagedReport

/-! ## Rewriting -/

/-- The stages before a call as its last argument, if there are any. -/
def lastArgument : Pipeline → List Operand
  | [] => []
  | c :: cs => [.nested (c :: cs)]

mutual

def Operand.unpiped : Operand → Operand
  | .literal v => .literal v
  | .field path => .field path
  | .root path => .root path
  | .nested p => .nested (unpipedFrom [] p)

def unpipedOperands : List Operand → List Operand
  | [] => []
  | o :: os => o.unpiped :: unpipedOperands os

/-- The stages `before` a command and the command itself.  An operand has no place for a value, so
the pipe before it stays. -/
def Command.unpiped (before : Pipeline) : Command → Pipeline
  | .call name args => [.call name (unpipedOperands args ++ lastArgument before)]
  | .operand o => before ++ [.operand o.unpiped]

def unpipedFrom (before : Pipeline) : List Command → Pipeline
  | [] => before
  | c :: cs => unpipedFrom (c.unpiped before) cs

end

/-- A pipeline with nested calls in place of its pipes, at every depth. -/
def unpiped (p : Pipeline) : Pipeline := unpipedFrom [] p

theorem unpipedFrom_append (before cs ds : Pipeline) :
    unpipedFrom before (cs ++ ds) = unpipedFrom (unpipedFrom before cs) ds := by
  induction cs generalizing before with
  | nil => rw [List.nil_append, unpipedFrom]
  | cons c cs ih => rw [List.cons_append, unpipedFrom, unpipedFrom, ih]

theorem Command.unpiped_ne_nil (before : Pipeline) (c : Command) : c.unpiped before ≠ [] := by
  cases c <;> simp [Command.unpiped]

theorem unpipedFrom_ne_nil {before : Pipeline} (h : before ≠ []) (cs : Pipeline) :
    unpipedFrom before cs ≠ [] := by
  induction cs generalizing before with
  | nil => exact h
  | cons c cs ih => exact ih (c.unpiped_ne_nil before)

theorem unpiped_concat_call (c : Command) (cs : Pipeline) (name : String) (args : List Operand) :
    unpiped (c :: cs ++ [.call name args]) =
      [.call name (unpipedOperands args ++ [.nested (unpiped (c :: cs))])] := by
  have hmore : unpiped (c :: cs) ≠ [] := unpipedFrom_ne_nil (c.unpiped_ne_nil []) cs
  obtain ⟨d, ds, hds⟩ := List.exists_cons_of_ne_nil hmore
  have hlast : lastArgument (unpiped (c :: cs)) = [.nested (unpiped (c :: cs))] := by
    rw [hds, lastArgument]
  rw [← hlast, unpiped, unpipedFrom_append]
  rfl

/-! ## Pipes that are left -/

mutual

/-- At every depth only calls stand behind a pipe. -/
def Operand.PipesIntoCalls : Operand → Prop
  | .nested p => StagesPipeIntoCalls false p
  | _ => True

def OperandsPipeIntoCalls : List Operand → Prop
  | [] => True
  | o :: os => o.PipesIntoCalls ∧ OperandsPipeIntoCalls os

def Command.PipesIntoCalls (behindPipe : Bool) : Command → Prop
  | .call _ args => OperandsPipeIntoCalls args
  | .operand o => behindPipe = false ∧ o.PipesIntoCalls

def StagesPipeIntoCalls (behindPipe : Bool) : List Command → Prop
  | [] => True
  | c :: cs => c.PipesIntoCalls behindPipe ∧ StagesPipeIntoCalls true cs

end

mutual

/-- There is no pipe at any depth. -/
def Operand.Pipeless : Operand → Prop
  | .nested p => StagesPipeless p
  | _ => True

def OperandsPipeless : List Operand → Prop
  | [] => True
  | o :: os => o.Pipeless ∧ OperandsPipeless os

def Command.Pipeless : Command → Prop
  | .call _ args => OperandsPipeless args
  | .operand o => o.Pipeless

def StagesPipeless : List Command → Prop
  | [] => True
  | [c] => c.Pipeless
  | _ :: _ :: _ => False

end

theorem OperandsPipeless.append {os os' : List Operand} (h : OperandsPipeless os)
    (h' : OperandsPipeless os') : OperandsPipeless (os ++ os') := by
  induction os with
  | nil => exact h'
  | cons o os ih =>
      obtain ⟨ho, hos⟩ := h
      exact ⟨ho, ih hos⟩

theorem StagesPipeless.lastArgument {before : Pipeline} (h : StagesPipeless before) :
    OperandsPipeless (lastArgument before) := by
  cases before with
  | nil => trivial
  | cons c cs => exact ⟨h, trivial⟩

mutual

theorem Operand.PipesIntoCalls.pipeless : ∀ {o : Operand}, o.PipesIntoCalls → o.unpiped.Pipeless
  | .literal _, _ => trivial
  | .field _, _ => trivial
  | .root _, _ => trivial
  | .nested _, h => @StagesPipeIntoCalls.pipeless [] trivial _ h

theorem OperandsPipeIntoCalls.pipeless :
    ∀ {os : List Operand}, OperandsPipeIntoCalls os → OperandsPipeless (unpipedOperands os)
  | [], _ => trivial
  | _ :: _, ⟨ho, hos⟩ => ⟨ho.pipeless, hos.pipeless⟩

theorem Command.PipesIntoCalls.pipeless {before : Pipeline} (hbefore : StagesPipeless before) :
    ∀ {c : Command}, c.PipesIntoCalls (!before.isEmpty) → StagesPipeless (c.unpiped before)
  | .call _ _, h => (OperandsPipeIntoCalls.pipeless h).append hbefore.lastArgument
  | .operand _, ⟨hfirst, ho⟩ => by
      obtain rfl : before = [] := by simpa using hfirst
      exact ho.pipeless

theorem StagesPipeIntoCalls.pipeless {before : Pipeline} (hbefore : StagesPipeless before) :
    ∀ {cs : List Command}, StagesPipeIntoCalls (!before.isEmpty) cs →
      StagesPipeless (unpipedFrom before cs)
  | [], _ => hbefore
  | c :: cs, ⟨hc, hcs⟩ => by
      have hmore : (c.unpiped before).isEmpty = false := by simpa using c.unpiped_ne_nil before
      apply StagesPipeIntoCalls.pipeless (hc.pipeless hbefore)
      rwa [hmore]

end

/-! ## Values -/

theorem toOption_bind {ε α β : Type} (x : Except ε α) (f : α → Except ε β) :
    (x >>= f).toOption = x.toOption.bind fun a ↦ (f a).toOption := by
  cases x <;> rfl

theorem toOption_eq_some_iff {ε α : Type} {x : Except ε α} {a : α} :
    x.toOption = some a ↔ x = .ok a := by
  cases x with
  | error e => exact ⟨nofun, nofun⟩
  | ok b => exact ⟨fun h ↦ congrArg _ (Option.some.inj h), fun h ↦ congrArg _ (Except.ok.inj h)⟩

variable (scope : Scope)

theorem evalStages_append (piped : Option Value) (cs ds : Pipeline) :
    evalStages scope piped (cs ++ ds) =
      evalStages scope piped cs >>= fun v ↦ evalStages scope v ds := by
  induction cs generalizing piped with
  | nil => rfl
  | cons c cs ih =>
      rw [List.cons_append, evalStages, evalStages]
      cases c.eval scope piped with
      | error e => rfl
      | ok v => exact ih (some v)

theorem toOption_evalOperands_cons (o : Operand) (os : List Operand) :
    (evalOperands scope (o :: os)).toOption =
      (o.eval scope).toOption.bind fun v ↦ (evalOperands scope os).toOption.map (v :: ·) := by
  rw [evalOperands, toOption_bind]
  congr 1
  funext v
  cases evalOperands scope os <;> rfl

theorem toOption_evalOperands_append (os os' : List Operand) :
    (evalOperands scope (os ++ os')).toOption =
      (evalOperands scope os).toOption.bind fun vs ↦
        (evalOperands scope os').toOption.map (vs ++ ·) := by
  induction os with
  | nil => simp [evalOperands, Except.toOption]
  | cons o os ih =>
      rw [List.cons_append, toOption_evalOperands_cons, toOption_evalOperands_cons, ih]
      simp [Option.bind_assoc, Option.map_bind, Option.bind_map, Function.comp_def]

/-- A call has a value if there is a helper of its name, its arguments have values and the helper is
defined on them. -/
theorem toOption_call (piped : Option Value) (name : String) (args : List Operand) :
    (Command.eval scope piped (.call name args)).toOption =
      (scope.helpers.get? name).bind fun h ↦ (evalOperands scope args).toOption.bind fun vs ↦
        (h (vs ++ piped.toList)).toOption := by
  rw [Command.eval]
  cases scope.helpers.get? name with
  | none => rfl
  | some h =>
      dsimp only [Option.bind_some]
      rw [toOption_bind]
      congr 1
      funext vs
      cases h (vs ++ piped.toList) <;> rfl

theorem toOption_evalStages_cons (piped : Option Value) (c : Command) (cs : Pipeline) :
    (evalStages scope piped (c :: cs)).toOption =
      (c.eval scope piped).toOption.bind fun v ↦ (evalStages scope (some v) cs).toOption := by
  rw [evalStages, toOption_bind]

theorem toOption_evalStages_append (piped : Option Value) (cs ds : Pipeline) :
    (evalStages scope piped (cs ++ ds)).toOption =
      (evalStages scope piped cs).toOption.bind fun v ↦ (evalStages scope v ds).toOption := by
  rw [evalStages_append, toOption_bind]

/-- Behind a value there is always a value. -/
theorem evalStages_ne_none (v : Value) (cs : Pipeline) :
    evalStages scope (some v) cs ≠ .ok none := by
  induction cs generalizing v with
  | nil => nofun
  | cons c cs ih =>
      rw [evalStages]
      cases c.eval scope (some v) with
      | error e => nofun
      | ok w => exact ih w

theorem exists_of_evalStages {c : Command} {cs : Pipeline} {v : Option Value}
    (h : evalStages scope none (c :: cs) = .ok v) : ∃ w, v = some w := by
  rw [evalStages] at h
  cases hc : c.eval scope none with
  | error e =>
      rw [hc] at h
      cases h
  | ok w =>
      rw [hc] at h
      cases v with
      | none => exact absurd h (evalStages_ne_none scope w cs)
      | some w' => exact ⟨w', rfl⟩

theorem toOption_eval_nested (p : Pipeline) :
    (Operand.eval scope (.nested p)).toOption =
      (evalStages scope none p).toOption.map fun v ↦ v.getD .null := by
  rw [Operand.eval, toOption_bind]
  exact Option.map_eq_bind.symm

/-- What stages pipe into a call is its last argument. -/
theorem toOption_call_lastArgument (before : Pipeline) (name : String) (args : List Operand) :
    (Command.eval scope none (.call name (args ++ lastArgument before))).toOption =
      (evalStages scope none before).toOption.bind fun v ↦
        (Command.eval scope v (.call name args)).toOption := by
  cases before with
  | nil => simp [lastArgument, evalStages, Except.toOption]
  | cons c cs =>
      simp only [toOption_call, lastArgument, toOption_evalOperands_append,
        toOption_evalOperands_cons, toOption_eval_nested]
      cases hbefore : evalStages scope none (c :: cs) with
      | error e => simp [Except.toOption]
      | ok v =>
          obtain ⟨w, rfl⟩ := exists_of_evalStages scope hbefore
          simp [evalOperands, Except.toOption, Option.bind_assoc]

mutual

theorem Operand.toOption_eval_unpiped :
    ∀ o : Operand, (o.unpiped.eval scope).toOption = (o.eval scope).toOption
  | .literal _ => rfl
  | .field _ => rfl
  | .root _ => rfl
  | .nested p => by
      rw [Operand.unpiped, toOption_eval_nested, toOption_eval_nested,
        toOption_evalStages_unpipedFrom [] p]
      rfl

theorem toOption_evalOperands_unpiped : ∀ os : List Operand,
    (evalOperands scope (unpipedOperands os)).toOption = (evalOperands scope os).toOption
  | [] => rfl
  | o :: os => by
      rw [unpipedOperands, toOption_evalOperands_cons, toOption_evalOperands_cons,
        Operand.toOption_eval_unpiped o, toOption_evalOperands_unpiped os]

theorem Command.toOption_evalStages_unpiped (before : Pipeline) : ∀ c : Command,
    (evalStages scope none (c.unpiped before)).toOption =
      (evalStages scope none before).toOption.bind fun v ↦ (evalStages scope v [c]).toOption
  | .call name args => by
      have hargs (v : Option Value) :
          (Command.eval scope v (.call name (unpipedOperands args))).toOption =
            (Command.eval scope v (.call name args)).toOption := by
        rw [toOption_call, toOption_call, toOption_evalOperands_unpiped args]
      simp only [Command.unpiped, toOption_evalStages_cons, toOption_call_lastArgument, hargs,
        Option.bind_assoc]
  | .operand o => by
      have ho (v : Option Value) : (Command.eval scope v (.operand o.unpiped)).toOption =
          (Command.eval scope v (.operand o)).toOption := by
        cases v with
        | none => exact Operand.toOption_eval_unpiped o
        | some v => rfl
      simp only [Command.unpiped, toOption_evalStages_append, toOption_evalStages_cons, ho]

theorem toOption_evalStages_unpipedFrom (before : Pipeline) : ∀ cs : Pipeline,
    (evalStages scope none (unpipedFrom before cs)).toOption =
      (evalStages scope none before).toOption.bind fun v ↦ (evalStages scope v cs).toOption
  | [] => by simp [unpipedFrom, evalStages, Except.toOption]
  | c :: cs => by
      rw [unpipedFrom, toOption_evalStages_unpipedFrom _ cs,
        Command.toOption_evalStages_unpiped before c, Option.bind_assoc]
      simp only [← toOption_evalStages_append, List.singleton_append]

end

theorem toOption_evaluate (p : Pipeline) :
    (evaluate scope p).toOption =
      (evalStages scope none p).toOption.map fun v ↦ v.getD .null :=
  toOption_eval_nested scope p

theorem evaluate_unpiped (p : Pipeline) :
    (evaluate scope (unpiped p)).toOption = (evaluate scope p).toOption :=
  Operand.toOption_eval_unpiped scope (.nested p)

theorem evaluate_pipe (cs : Pipeline) (name : String) (args : List Operand) :
    (evaluate scope (cs ++ [.call name args])).toOption =
      (evaluate scope [.call name (args ++ lastArgument cs)]).toOption := by
  simp only [toOption_evaluate, toOption_evalStages_append, toOption_evalStages_cons,
    toOption_call_lastArgument, Option.bind_assoc]

theorem evaluate_operand_behind (c : Command) (cs : Pipeline) (o : Operand) (rest : Pipeline) :
    (evaluate scope (c :: cs ++ .operand o :: rest)).toOption = none := by
  rw [toOption_evaluate, toOption_evalStages_append]
  cases hbefore : evalStages scope none (c :: cs) with
  | error e => rfl
  | ok v =>
      obtain ⟨w, rfl⟩ := exists_of_evalStages scope hbefore
      rfl

/-- A call behind a pipe has a value if and only if the call with all stages before it as its last
argument has, and then it is the same; a bare operand behind a pipe has none.  So every pipeline has
the value of its nested calls at every depth, and if only calls stand behind pipes, no pipe is left
there. -/
theorem piping_is_nesting :
    (∀ (c : Command) (cs : Pipeline) (name : String) (args : List Operand) (v : Value),
      evaluate scope (c :: cs ++ [.call name args]) = .ok v ↔
        evaluate scope [.call name (args ++ [.nested (c :: cs)])] = .ok v) ∧
    (∀ (p : Pipeline) (v : Value),
      evaluate scope p = .ok v ↔ evaluate scope (unpiped p) = .ok v) ∧
    (∀ (c : Command) (cs : Pipeline) (name : String) (args : List Operand),
      unpiped (c :: cs ++ [.call name args]) =
        [.call name (unpipedOperands args ++ [.nested (unpiped (c :: cs))])]) ∧
    (∀ p : Pipeline, StagesPipeIntoCalls false p → StagesPipeless (unpiped p)) ∧
    ∀ (c : Command) (cs : Pipeline) (o : Operand) (rest : Pipeline) (v : Value),
      evaluate scope (c :: cs ++ .operand o :: rest) ≠ .ok v := by
  refine ⟨?_, ?_, unpiped_concat_call, ?_, ?_⟩
  · intro c cs name args v
    rw [← toOption_eq_some_iff, ← toOption_eq_some_iff, evaluate_pipe scope (c :: cs) name args]
    rfl
  · intro p v
    rw [← toOption_eq_some_iff, ← toOption_eq_some_iff, evaluate_unpiped]
  · intro p hp
    exact @StagesPipeIntoCalls.pipeless [] trivial _ hp
  · intro c cs o rest v hv
    rw [← toOption_eq_some_iff, evaluate_operand_behind] at hv
    cases hv

/-- A name, or else a word for it, in capitals: `.name | default (lower "N/A" | trim) | upper`. -/
def inCapitals : Pipeline :=
  [ .operand (.field ["name"]),
    .call "default"
      [.nested [.call "lower" [.literal (.string "N/A")], .call "trim" []]],
    .call "upper" [] ]

theorem piping_is_nesting_capitals :
    StagesPipeIntoCalls false inCapitals ∧ StagesPipeless (unpiped inCapitals) ∧
      evaluate ⟨.object [], .object [], .standard⟩ (unpiped inCapitals) = .ok (.string "N/A") := by
  have hcalls : StagesPipeIntoCalls false inCapitals := by
    simp [inCapitals, StagesPipeIntoCalls, Command.PipesIntoCalls, OperandsPipeIntoCalls,
      Operand.PipesIntoCalls]
  have hvalue : evaluate ⟨.object [], .object [], .standard⟩ inCapitals = .ok (.string "N/A") := rfl
  obtain ⟨-, hvalues, -, hpipeless, -⟩ :=
    piping_is_nesting ⟨.object [], .object [], .standard⟩
  exact ⟨hcalls, hpipeless inCapitals hcalls, (hvalues inCapitals _).mp hvalue⟩

end PagedReport
