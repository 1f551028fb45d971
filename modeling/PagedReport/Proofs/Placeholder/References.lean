import PagedReport.Placeholder.Source
import PagedReport.Proofs.Placeholder.Printing
import PagedReport.Proofs.Placeholder.Substitution

/-!
# References and paths

A table or a list names its data by a text that looks like an action over a path.  The reference is
read by taking its marks off and splitting what is left at the dots, the action by the grammar of
pipelines.  Both walks along the path end at the same value.
-/

namespace PagedReport

/-! ## Two walks along a path -/

theorem select_object (key : String) (path : List String) (members : Members) :
    select (key :: path) (.object members) =
      select path (((Value.object members).member? key).getD .null) := rfl

theorem select_append (way path : List String) (data : Value) :
    select (way ++ path) data = (select way data).bind (select path) := by
  induction way generalizing data with
  | nil => rfl
  | cons key way ih => cases data <;> simp [select, ih, Except.bind]

/-- Nothing but null is found below null. -/
theorem eq_null_of_select_null {path : List String} {v : Value}
    (h : select path .null = .ok v) : v = .null := by
  cases path with
  | nil => exact (Except.ok.inj h).symm
  | cons => cases h

theorem Action.NameText.no_dot {cs : List Char} (h : Action.NameText cs) : '.' ∉ cs := by
  obtain ⟨hfirst, hmore⟩ := h
  intro hdot
  rcases List.mem_cons.mp hdot with rfl | hdot
  · revert hfirst
    decide
  · have hcontinues := hmore '.' hdot
    revert hcontinues
    decide +kernel

namespace Source

open PagedReport.Action

/-- Where a path leads; a name that is not there ends the walk. -/
def follow (data : Value) (path : List String) : Option Value :=
  path.foldlM (fun v part ↦ v.member? part) data

theorem follow_cons (data : Value) (key : String) (path : List String) :
    follow data (key :: path) = (data.member? key).bind (follow · path) := rfl

/-- The path leads to an object that has no member of the last name. -/
def Lacks (data : Value) (path : List String) : Prop :=
  ∃ (way : List String) (key : String) (members : Members), path = way ++ [key] ∧
    select way data = .ok (.object members) ∧ (Value.object members).member? key = none

theorem Lacks.cons {members : Members} {key : String} {v : Value} {path : List String}
    (hv : (Value.object members).member? key = some v) (h : Lacks v path) :
    Lacks (.object members) (key :: path) := by
  obtain ⟨way, last, inner, rfl, hway, hlast⟩ := h
  refine ⟨key :: way, last, inner, rfl, ?_, hlast⟩
  rwa [select_object, hv]

theorem Lacks.select {data : Value} {path : List String} (h : Lacks data path) :
    select path data = .ok .null := by
  obtain ⟨way, key, members, rfl, hway, hkey⟩ := h
  rw [select_append, hway, Except.bind, select_object, hkey]
  rfl

theorem select_of_follow {data v : Value} {path : List String} (h : follow data path = some v) :
    select path data = .ok v := by
  induction path generalizing data with
  | nil => exact congrArg Except.ok (Option.some.inj h)
  | cons key path ih =>
      rw [follow_cons] at h
      obtain ⟨w, hw, hpath⟩ := Option.bind_eq_some_iff.mp h
      cases data with
      | object members =>
          rw [select_object, hw]
          exact ih hpath
      | null | bool | number | string | array => cases hw

/-- The two walks treat an absent member differently, but what they find there is null. -/
theorem follow_of_select {data v : Value} {path : List String} (h : select path data = .ok v)
    (hv : v ≠ .null) : follow data path = some v := by
  induction path generalizing data with
  | nil => exact congrArg some (Except.ok.inj h)
  | cons key path ih =>
      cases data with
      | object members =>
          rw [select_object] at h
          rw [follow_cons]
          cases hw : (Value.object members).member? key with
          | none =>
              rw [hw] at h
              exact absurd (eq_null_of_select_null h) hv
          | some w =>
              rw [hw] at h
              exact ih h
      | null | bool | number | string | array => cases h

theorem Lacks.follow {data : Value} {path : List String} (h : Lacks data path) :
    follow data path = none := by
  obtain ⟨way, key, members, rfl, hway, hkey⟩ := h
  have hobject := follow_of_select hway nofun
  rw [Source.follow] at hobject ⊢
  rw [List.foldlM_append, hobject]
  simp [hkey]

theorem follow_eq_none {data : Value} {path : List String} :
    follow data path = none ↔ (∃ e, select path data = .error e) ∨ Lacks data path := by
  constructor
  · intro h
    induction path generalizing data with
    | nil => cases h
    | cons key path ih =>
        cases data with
        | object members =>
            rw [follow_cons] at h
            rw [select_object]
            cases hv : (Value.object members).member? key with
            | some v =>
                rw [hv] at h
                exact (ih h).imp_right (.cons hv)
            | none =>
                cases path with
                | nil => exact .inr ⟨[], key, members, rfl, rfl, hv⟩
                | cons next path => exact .inl ⟨_, rfl⟩
        | null | bool | number | string | array => exact .inl ⟨_, rfl⟩
  · rintro (⟨e, he⟩ | hlacks)
    · rw [Option.eq_none_iff_forall_ne_some]
      intro v hv
      rw [select_of_follow hv] at he
      cases he
    · exact hlacks.follow

/-! ## What a reference names -/

/-- A path between the marks of an action, with blanks inside the marks. -/
def reference (before path behind : List Char) : String :=
  String.ofList (['{', '{'] ++ (before ++ path ++ behind) ++ ['}', '}'])

theorem dropSuffix_append (cs mark : List Char) : dropSuffix mark (cs ++ mark) = cs := by
  simp [dropSuffix]

theorem dotted_eq {keys : List String} (hne : keys ≠ []) :
    dotted keys = '.' :: (".".intercalate keys).toList := by
  induction keys with
  | nil => cases hne rfl
  | cons key keys ih =>
      cases keys with
      | nil => simp [dotted]
      | cons next keys =>
          rw [String.intercalate_cons_cons, dotted, List.flatMap_cons, ← dotted,
            ih (List.cons_ne_nil next keys)]
          simp

section

variable {keys : List String} (hne : keys ≠ []) (hkeys : ∀ key ∈ keys, NameText key.toList)
include hne hkeys

theorem key_reference {before behind : List Char} (hbefore : ∀ c ∈ before, isBlank c = true)
    (hbehind : ∀ c ∈ behind, isBlank c = true) :
    key (reference before (dotted keys) behind) = ".".intercalate keys := by
  have hpath := dotted_eq hne
  have hblank := dotted_not_blank hkeys
  have hsize : ¬(reference before (dotted keys) behind).utf8ByteSize < 5 := by
    have hpos : (String.ofList (dotted keys)).utf8ByteSize ≠ 0 := by
      rw [Ne, String.utf8ByteSize_eq_zero_iff, hpath]
      simp
    have hopen : (String.ofList ['{', '{']).utf8ByteSize = 2 := rfl
    have hclose : (String.ofList ['}', '}']).utf8ByteSize = 2 := rfl
    simp only [reference, String.ofList_append, String.utf8ByteSize_append]
    omega
  have hmarks : trimBoth (['{', '{'] ++ (before ++ dotted keys ++ behind) ++ ['}', '}']) =
      ['{', '{'] ++ (before ++ dotted keys ++ behind) ++ ['}', '}'] := by
    apply trimBoth_eq_self
    · intro c hc
      obtain rfl : '{' = c := by simpa using hc
      decide
    · intro c hc
      rw [Option.mem_def, List.getLast?_append] at hc
      obtain rfl : '}' = c := by simpa using hc
      decide
  have hopen (cs : List Char) : dropPrefix ['{', '{'] (['{', '{'] ++ cs) = cs := by
    simp [dropPrefix]
  have hname : trimBoth (".".intercalate keys).toList = (".".intercalate keys).toList := by
    refine trimBoth_eq_self (fun c hc ↦ hblank c ?_) fun c hc ↦ hblank c ?_
    · rw [hpath]
      exact List.mem_cons_of_mem _ (List.mem_of_mem_head? hc)
    · rw [hpath]
      exact List.mem_cons_of_mem _ (List.mem_of_getLast? hc)
  have hdot : dropPrefix ['.'] (dotted keys) = (".".intercalate keys).toList := by
    rw [hpath]
    simp [dropPrefix]
  rw [key, if_neg hsize, reference, String.toList_ofList, hmarks]
  simp only [List.append_assoc ['{', '{'], hopen, dropSuffix_append]
  rw [trimBoth_between hbefore hblank hbehind, hdot, hname, String.ofList_toList]

theorem parts_intercalate : parts (".".intercalate keys) = keys := by
  have hdot : ∀ cs ∈ keys.map String.toList, '.' ∉ cs := by
    intro cs hcs
    obtain ⟨key, hkey, rfl⟩ := List.mem_map.mp hcs
    exact (hkeys key hkey).no_dot
  rw [parts, String.toList_intercalate]
  rw [show ".".toList = ['.'] from rfl, List.splitOn_intercalate _ hdot (by simpa using hne)]
  simp

theorem lookup_intercalate {data : Value}
    (hflat : 1 < keys.length → data.member? (".".intercalate keys) = none) :
    lookup data (".".intercalate keys) = follow data keys := by
  have hfull : ¬(".".intercalate keys).isEmpty := by
    intro hempty
    have hparts := parts_intercalate hne hkeys
    rw [String.isEmpty_iff.mp hempty] at hparts
    subst hparts
    nomatch hkeys "" (by decide)
  rw [lookup, if_neg hfull]
  cases hmember : data.member? (".".intercalate keys) with
  | none => rw [parts_intercalate hne hkeys, follow]
  | some v =>
      -- of two names or more the joined name is no member
      have hlength : ¬1 < keys.length := fun hlong ↦ by simp [hflat hlong] at hmember
      have hpos := List.length_pos_iff.mpr hne
      obtain ⟨key, rfl⟩ := List.length_eq_one_iff.mp (show keys.length = 1 by omega)
      rw [String.intercalate_singleton] at hmember
      rw [follow_cons, hmember]
      rfl

theorem pipelineText_dotted : PipelineText (dotted keys) [.operand (.field keys)] := by
  have hpath : printOperand (.field keys) = dotted keys := by
    obtain ⟨key, path, rfl⟩ := List.exists_cons_of_ne_nil hne
    rfl
  have hwell : PipelineWellFormed [.operand (.field keys)] := hkeys
  rw [← hpath]
  exact pipelineText_print hwell

end

section

variable {cs : List Char} {p : Pipeline} (htext : PipelineText cs p) {before behind : List Char}
  (hbefore : ∀ c ∈ before, isBlank c = true) (hbehind : ∀ c ∈ behind, isBlank c = true)

include htext hbefore hbehind

theorem read_between : Action.read (String.ofList (before ++ cs ++ behind)) = .ok p := by
  rw [read_eq_ok, String.toList_ofList, trimBoth_append hbefore cs hbehind, htext.trimBoth]
  exact htext

/-- A reference is also a fragment that is a single action. -/
theorem split_between :
    Fragment.split (reference before cs behind) = .ok [.action p] := by
  let slot : Fragment.Slot :=
    { before := []
      body := String.ofList (before ++ cs ++ behind)
      action := p
      trimsBefore := false
      trimsAfter := false
      plain := by simp
      apart := by simp
      reads := read_between htext hbefore hbehind }
  have htail : ¬['{', '{'] <:+: [] := by simp
  have hsplit := Fragment.split_written [slot] htail
  simpa [slot, reference, Fragment.written, Fragment.Slot.written, Fragment.Slot.inside,
    Fragment.pieces, Fragment.shorn, Fragment.textSegment] using hsplit

theorem tryResolve_between {helpers : Helpers} {data v : Value}
    (hv : evaluate ⟨data, data, helpers⟩ p = .ok v) (hne : v ≠ .null) :
    tryResolve helpers data (reference before cs behind) = .ok v.printNested := by
  simp [tryResolve, split_between htext hbefore hbehind, Fragment.render_action _ hv hne, bind,
    Except.bind, pure, Except.pure]

end

section

variable {keys : List String} (hne : keys ≠ []) (hkeys : ∀ key ∈ keys, NameText key.toList)
  {before behind : List Char} (hbefore : ∀ c ∈ before, isBlank c = true)
  (hbehind : ∀ c ∈ behind, isBlank c = true)

include hne hkeys hbefore hbehind

theorem read_dotted :
    Action.read (String.ofList (before ++ dotted keys ++ behind)) =
      .ok [.operand (.field keys)] :=
  read_between (pipelineText_dotted hne hkeys) hbefore hbehind

theorem split_reference :
    Fragment.split (reference before (dotted keys) behind) =
      .ok [.action [.operand (.field keys)]] :=
  split_between (pipelineText_dotted hne hkeys) hbefore hbehind

end

theorem evaluate_field (scope : Scope) (path : List String) :
    evaluate scope [.operand (.field path)] = select path scope.dot := by
  rw [evaluate, evalStages, Command.eval, Operand.eval]
  cases select path scope.dot <;> rfl

/-- A reference and the action it looks like name the same value.  What the action cannot reach, and
a member that is not there, which is null to the action, the reference does not find. -/
theorem find_evaluated {keys : List String} (hne : keys ≠ [])
    (hkeys : ∀ key ∈ keys, NameText key.toList) {before behind : List Char}
    (hbefore : ∀ c ∈ before, isBlank c = true) (hbehind : ∀ c ∈ behind, isBlank c = true)
    {data : Value} (hflat : 1 < keys.length → data.member? (".".intercalate keys) = none)
    (helpers : Helpers) :
    let scope : Scope := ⟨data, data, helpers⟩
    let found := find data (reference before (dotted keys) behind)
    ∃ action : Pipeline,
      Action.read (String.ofList (dotted keys)) = .ok action ∧
        Fragment.split (reference before (dotted keys) behind) = .ok [.action action] ∧
        (∀ v, v ≠ .null → (found = some v ↔ evaluate scope action = .ok v)) ∧
        (found = none ↔ (∃ e, evaluate scope action = .error e) ∨ Lacks data keys) ∧
        (Lacks data keys → evaluate scope action = .ok .null) := by
  intro scope found
  have hread : Action.read (String.ofList (dotted keys)) = .ok [.operand (.field keys)] := by
    have hnone : ∀ c ∈ [], isBlank c = true := by simp
    simpa using read_dotted hne hkeys hnone hnone
  have hfound : found = follow data keys := by
    rw [← lookup_intercalate hne hkeys hflat, ← key_reference hne hkeys hbefore hbehind]
    rfl
  refine ⟨_, hread, split_reference hne hkeys hbefore hbehind, ?_, ?_, ?_⟩
  · intro v hv
    rw [hfound, evaluate_field]
    exact ⟨select_of_follow, fun h ↦ follow_of_select h hv⟩
  · rw [hfound, follow_eq_none, evaluate_field]
  · intro hlacks
    rw [evaluate_field]
    exact hlacks.select

def stock : Value :=
  .object [("shop", .object [("items", .array [.string "tea"]), ("open", .bool true)])]

theorem find_evaluated_stock :
    find stock (reference [' '] (dotted ["shop", "items"]) ['\t']) = some (.array [.string "tea"]) ∧
      find stock (reference [] (dotted ["shop", "till"]) []) = none := by
  have hnone : ∀ c ∈ [], isBlank c = true := by simp
  have hspace : ∀ c ∈ [' '], isBlank c = true := List.forall_mem_singleton.mpr (by decide)
  have htab : ∀ c ∈ ['\t'], isBlank c = true := List.forall_mem_singleton.mpr (by decide)
  have hitems : ∀ key ∈ ["shop", "items"], NameText key.toList := by decide +kernel
  have htill : ∀ key ∈ ["shop", "till"], NameText key.toList := by decide +kernel
  have hflat (keys : List String) (h : stock.member? (".".intercalate keys) = none) :
      1 < keys.length → stock.member? (".".intercalate keys) = none := fun _ ↦ h
  constructor
  · obtain ⟨action, hread, -, hfound, -⟩ :=
      find_evaluated (by simp) hitems hspace htab (hflat ["shop", "items"] rfl) .empty
    obtain rfl : [.operand (.field ["shop", "items"])] = action := Except.ok.inj hread
    exact (hfound (.array [.string "tea"]) nofun).mpr rfl
  · obtain ⟨action, hread, -, -, hmissing, -⟩ :=
      find_evaluated (by simp) htill hnone hnone (hflat ["shop", "till"] rfl) .empty
    exact hmissing.mpr (.inr ⟨["shop"], "till", _, rfl, rfl, rfl⟩)

end Source

end PagedReport
