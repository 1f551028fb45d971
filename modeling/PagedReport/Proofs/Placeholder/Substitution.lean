import PagedReport.Proofs.Placeholder.Pieces

/-!
# Substituting actions

A fragment is put together from literal texts and actions.  Splitting it takes it apart at exactly
the places where it was put together, so resolving it replaces every action by its printed value and
nothing else.
-/

namespace PagedReport

namespace Fragment

open PagedReport.Action

/-! ## Fragments that are put together -/

/-- A literal text and the action behind it, perhaps with marks for trimming. -/
structure Slot where
  before : List Char
  body : String
  action : Pipeline
  trimsBefore : Bool
  trimsAfter : Bool
  plain : ¬['{', '{'] <:+: before
  apart : before.getLast? ≠ some '{'
  reads : Action.read body = .ok action

def Slot.inside (s : Slot) : List Char :=
  (if s.trimsBefore then ['-', ' '] else []) ++ s.body.toList ++
    if s.trimsAfter then [' ', '-'] else []

def Slot.written (s : Slot) : List Char :=
  s.before ++ '{' :: '{' :: (s.inside ++ ['}', '}'])

/-- The fragment of some slots and the literal text behind them. -/
def written (slots : List Slot) (tail : List Char) : List Char :=
  slots.flatMap Slot.written ++ tail

/-- A literal text without the blanks at the ends where marks ask for it. -/
def shorn (left right : Bool) (cs : List Char) : List Char :=
  let cs := if left then trimLeft cs else cs
  if right then trimRight cs else cs

/-- The segments of a fragment that is put together; `trims` says if a mark stands before it. -/
def pieces : Bool → List Slot → List Char → List Segment
  | trims, [], tail => textSegment (shorn trims false tail)
  | trims, s :: slots, tail =>
      textSegment (shorn trims s.trimsBefore s.before) ++
        .action s.action :: pieces s.trimsAfter slots tail

/-- The text of a fragment that is put together, given the texts of its actions. -/
def filled (printed : Slot → String) : Bool → List Slot → List Char → List Char
  | trims, [], tail => shorn trims false tail
  | trims, s :: slots, tail =>
      shorn trims s.trimsBefore s.before ++ (printed s).toList ++
        filled printed s.trimsAfter slots tail

/-! ## Taking fragments apart -/

theorem findOpen_eq_none {cs : List Char} (h : ¬['{', '{'] <:+: cs) : findOpen cs = none := by
  induction cs with
  | nil => rfl
  | cons c cs ih =>
      rw [findOpen.eq_3, ih fun hin ↦ h (hin.trans (List.suffix_cons c cs).isInfix)]
      rintro ds rfl rfl
      exact h ⟨[], ds, rfl⟩

theorem findOpen_append {cs : List Char} (h : ¬['{', '{'] <:+: cs) (hlast : cs.getLast? ≠ some '{')
    (rest : List Char) : findOpen (cs ++ rest) = (findOpen rest).map fun r ↦ (cs ++ r.1, r.2) := by
  induction cs with
  | nil => simp
  | cons c cs ih =>
      have hrest : cs.getLast? ≠ some '{' := by
        cases cs with
        | nil => simp
        | cons d cs => rwa [List.getLast?_cons_cons] at hlast
      rw [List.cons_append, findOpen.eq_3,
        ih (fun hin ↦ h (hin.trans (List.suffix_cons c cs).isInfix)) hrest]
      · cases findOpen rest <;> rfl
      · rintro ds rfl heq
        -- The first brace of the mark would have to be the last character before it.
        cases cs with
        | nil => exact hlast rfl
        | cons d cs =>
            obtain ⟨rfl, -⟩ := List.cons.inj heq
            exact h ⟨[], cs, rfl⟩

theorem dropEndMark_append (cs : List Char) : dropEndMark (cs ++ [' ', '-']) = some cs := by
  simp [dropEndMark]

theorem dropEndMark_eq_none {cs : List Char} (h : Piece cs) : dropEndMark cs = none := by
  unfold dropEndMark
  split
  · next rest hrev =>
      refine absurd ?_ h.last
      rw [List.getLast?_eq_head?_reverse, hrev]
      rfl
  · rfl

/-- An action is not taken for one with a mark at its beginning, even if it begins with a dash. -/
theorem body_append_ne (s : Slot) (ds : List Char) :
    s.body.toList ++ (if s.trimsAfter then [' ', '-'] else []) ≠ '-' :: ' ' :: ds := by
  intro heq
  cases hbody : s.body.toList with
  | nil =>
      rw [hbody] at heq
      split at heq <;> simp at heq
  | cons c cs =>
      rw [hbody] at heq
      obtain ⟨rfl, htail⟩ := List.cons.inj heq
      obtain ⟨d, es, rfl, hd⟩ := digit_of_read s.reads hbody
      obtain ⟨rfl, -⟩ := List.cons.inj htail
      simp [Char.isDigit] at hd

theorem marked_of_ne {cs : List Char} (hcs : ∀ ds, cs ≠ '-' :: ' ' :: ds) :
    marked cs =
      match dropEndMark cs with
      | some body => ⟨body, false, true⟩
      | none => ⟨cs, false, false⟩ := by
  unfold marked
  split
  next body before heq =>
    split at heq
    · next ds => exact absurd rfl (hcs ds)
    · obtain ⟨rfl, rfl⟩ := Prod.mk.inj heq
      rfl

theorem marked_inside (s : Slot) :
    marked s.inside = ⟨s.body.toList, s.trimsBefore, s.trimsAfter⟩ := by
  have hne := body_append_ne s
  have hnone := dropEndMark_eq_none (piece_of_read s.reads)
  have hsome := dropEndMark_append s.body.toList
  cases hbefore : s.trimsBefore <;> cases hafter : s.trimsAfter <;>
    simp only [Slot.inside, hbefore, hafter, Bool.false_eq_true, if_true, if_false,
      List.nil_append, List.append_nil, List.cons_append] at hne ⊢
  · rw [marked_of_ne hne, hnone]
  · rw [marked_of_ne hne, hsome]
  · simp [marked, hnone]
  · simp [marked, hsome]

theorem actionSegment_body (s : Slot) : actionSegment s.body.toList = .ok (.action s.action) := by
  simp [actionSegment, not_isComment_of_read s.reads, s.reads]

theorem findClose_inside (s : Slot) (rest : List Char) :
    findClose .action (s.inside ++ '}' :: '}' :: rest) = some (s.inside, rest) := by
  apply findClose_of_passes
  have hmark : ∀ b : Bool, ∀ m : List Char, (∀ c ∈ m, Plain c) →
      Passes .action (if b then m else []) .action := by
    intro b m hm
    cases b with
    | false => exact .nil _
    | true => exact passes_of_plain hm
  have hbefore := hmark s.trimsBefore ['-', ' '] (by simp [Plain])
  have hafter := hmark s.trimsAfter [' ', '-'] (by simp [Plain])
  exact (hbefore.trans (piece_of_read s.reads).passes).trans hafter

theorem splitFrom_written (fragment : String) (slots : List Slot) {tail : List Char}
    (htail : ¬['{', '{'] <:+: tail) (trims : Bool) {fuel : Nat} (hfuel : slots.length < fuel) :
    splitFrom fragment fuel trims (written slots tail) = .ok (pieces trims slots tail) := by
  -- the mark behind one action trims the literal text before the next
  induction slots generalizing trims fuel with
  | nil =>
      obtain ⟨fuel, rfl⟩ := Nat.exists_eq_succ_of_ne_zero (Nat.ne_of_gt hfuel)
      simp [splitFrom, written, findOpen_eq_none htail, pieces, shorn]
  | cons s slots ih =>
      obtain ⟨fuel, rfl⟩ := Nat.exists_eq_succ_of_ne_zero (Nat.ne_of_gt (Nat.zero_lt_of_lt hfuel))
      have hwritten : written (s :: slots) tail =
          s.before ++ '{' :: '{' :: (s.inside ++ '}' :: '}' :: written slots tail) := by
        simp [written, Slot.written]
      have hmore := ih s.trimsAfter (Nat.lt_of_succ_lt_succ hfuel)
      rw [hwritten, splitFrom, findOpen_append s.plain s.apart, findOpen]
      simp [findClose_inside, marked_inside, actionSegment_body, hmore, pieces, shorn]
      rfl

theorem split_written (slots : List Slot) {tail : List Char} (htail : ¬['{', '{'] <:+: tail) :
    split (String.ofList (written slots tail)) = .ok (pieces false slots tail) := by
  rw [split, String.toList_ofList]
  apply splitFrom_written _ _ htail
  have hlen : slots.length ≤ (slots.flatMap Slot.written).length := by
    induction slots with
    | nil => simp
    | cons s slots ih =>
        simp only [List.length_cons, List.flatMap_cons, List.length_append, Slot.written] at ih ⊢
        omega
  simp only [String.length_ofList, written, List.length_append]
  omega

/-! ## Printing actions -/

theorem flatten_textSegment (scope : Scope) (fragment : String) (cs : List Char) :
    ∃ texts, (textSegment cs).mapM (Segment.render scope fragment) = .ok texts ∧
      texts.flatten = cs := by
  cases cs with
  | nil => exact ⟨[], rfl, rfl⟩
  | cons c cs => exact ⟨[c :: cs], rfl, by simp⟩

theorem render_action {scope : Scope} (fragment : String) {p : Pipeline} {v : Value}
    (hv : evaluate scope p = .ok v) (hne : v ≠ .null) :
    Segment.render scope fragment (.action p) = .ok v.printNested.toList := by
  cases v with
  | null => exact absurd rfl hne
  | _ => simp [Segment.render, hv, Value.print?, bind, Except.bind, pure, Except.pure]

theorem render_action_ne_ok {scope : Scope} {fragment : String} {p : Pipeline}
    (h : ∀ v, evaluate scope p = .ok v → v = .null) (cs : List Char) :
    Segment.render scope fragment (.action p) ≠ .ok cs := by
  cases hp : evaluate scope p with
  | error e => simp [Segment.render, hp, bind, Except.bind]
  | ok v => simp [Segment.render, hp, h v hp, Value.print?, bind, Except.bind]

theorem mapM_render_pieces {scope : Scope} (fragment : String) (value : Slot → Value)
    {slots : List Slot} (tail : List Char)
    (h : ∀ s ∈ slots, evaluate scope s.action = .ok (value s) ∧ value s ≠ .null) (trims : Bool) :
    ∃ texts, (pieces trims slots tail).mapM (Segment.render scope fragment) = .ok texts ∧
      texts.flatten = filled (fun s ↦ (value s).printNested) trims slots tail := by
  induction slots generalizing trims with
  | nil => exact flatten_textSegment scope fragment _
  | cons s slots ih =>
      obtain ⟨before, hbefore, hflat⟩ :=
        flatten_textSegment scope fragment (shorn trims s.trimsBefore s.before)
      obtain ⟨more, hmore, hrest⟩ := ih (fun t ht ↦ h t (List.mem_cons_of_mem s ht)) s.trimsAfter
      have haction := render_action fragment (h s (by simp)).1 (h s (by simp)).2
      refine ⟨before ++ (value s).printNested.toList :: more, ?_, ?_⟩
      · simp [pieces, List.mapM_append, List.mapM_cons, hbefore, haction, hmore, bind, Except.bind,
          pure, Except.pure]
      · simp [filled, hflat, hrest]

theorem mem_pieces {s : Slot} {slots : List Slot} (hs : s ∈ slots) (tail : List Char)
    (trims : Bool) : Segment.action s.action ∈ pieces trims slots tail := by
  induction slots generalizing trims with
  | nil => simp at hs
  | cons t slots ih =>
      rcases List.mem_cons.mp hs with rfl | hs
      · simp [pieces]
      · exact List.mem_append_right _ (List.mem_cons_of_mem _ (ih hs t.trimsAfter))

theorem exists_of_mapM_eq_ok {α β ε : Type} {f : α → Except ε β} {xs : List α} {ys : List β}
    (h : xs.mapM f = .ok ys) {x : α} (hx : x ∈ xs) : ∃ y, f x = .ok y := by
  induction xs generalizing ys with
  | nil => simp at hx
  | cons z xs ih =>
      rw [List.mapM_cons] at h
      cases hz : f z with
      | error e => simp [hz, bind, Except.bind] at h
      | ok y =>
          cases hxs : xs.mapM f with
          | error e => simp [hz, hxs, bind, Except.bind] at h
          | ok zs =>
              rcases List.mem_cons.mp hx with rfl | hx
              · exact ⟨y, hz⟩
              · exact ih hxs hx

theorem tryResolve_written {slots : List Slot} {tail : List Char} (htail : ¬['{', '{'] <:+: tail)
    (helpers : Helpers) (data : Value) (value : Slot → Value)
    (h : ∀ s ∈ slots, evaluate ⟨data, data, helpers⟩ s.action = .ok (value s) ∧ value s ≠ .null) :
    tryResolve helpers data (String.ofList (written slots tail)) =
      .ok (String.ofList (filled (fun s ↦ (value s).printNested) false slots tail)) := by
  obtain ⟨texts, htexts, hflat⟩ :=
    mapM_render_pieces (String.ofList (written slots tail)) value tail h false
  simp only [tryResolve, split_written slots htail, bind, Except.bind]
  rw [htexts, ← hflat]
  rfl

theorem resolve_written {slots : List Slot} {tail : List Char} (htail : ¬['{', '{'] <:+: tail)
    (helpers : Helpers) (data : Value)
    (h : ∃ s ∈ slots, ∀ v, evaluate ⟨data, data, helpers⟩ s.action = .ok v → v = .null) :
    resolve helpers data (String.ofList (written slots tail)) =
      String.ofList (written slots tail) := by
  obtain ⟨s, hs, hfail⟩ := h
  unfold resolve
  split
  · next text htext =>
      simp only [tryResolve, split_written slots htail, bind, Except.bind] at htext
      split at htext
      · simp at htext
      · next texts htexts =>
          obtain ⟨cs, hcs⟩ := exists_of_mapM_eq_ok htexts (mem_pieces hs tail false)
          exact absurd hcs (render_action_ne_ok hfail cs)
  · rfl

/-! ## Exactness -/

/-- A fragment is taken apart into its literal texts and actions as they were put together, marks
for trimming apart.  If all actions have values other than null, resolving it puts their printed
values in their places; if one has not, the fragment stays as it is. -/
theorem substitution_exact (slots : List Slot) {tail : List Char} (htail : ¬['{', '{'] <:+: tail)
    (helpers : Helpers) (data : Value) :
    split (String.ofList (written slots tail)) = .ok (pieces false slots tail) ∧
    (∀ value : Slot → Value,
      (∀ s ∈ slots, evaluate ⟨data, data, helpers⟩ s.action = .ok (value s) ∧ value s ≠ .null) →
      tryResolve helpers data (String.ofList (written slots tail)) =
        .ok (String.ofList (filled (fun s ↦ (value s).printNested) false slots tail))) ∧
    ((∃ s ∈ slots, ∀ v, evaluate ⟨data, data, helpers⟩ s.action = .ok v → v = .null) →
      resolve helpers data (String.ofList (written slots tail)) =
        String.ofList (written slots tail)) :=
  ⟨split_written slots htail, tryResolve_written htail helpers data,
    resolve_written htail helpers data⟩

/-- A string that holds both marks and an escaped quote, with blanks trimmed around it, and a
pipeline. -/
def trickySlots : List Slot :=
  [ { before := ['a', ' '], body := "\"\x7d\x7d\x7b\x7b\\\"\"",
      action := [.operand (.literal (.string "\x7d\x7d\x7b\x7b\""))],
      trimsBefore := true, trimsAfter := true,
      plain := by decide, apart := by decide, reads := rfl },
    { before := [' ', '}', 'b'], body := " .n | upper",
      action := [.operand (.field ["n"]), .call "upper" []],
      trimsBefore := false, trimsAfter := false,
      plain := by decide, apart := by decide, reads := rfl } ]

theorem substitution_exact_trickySlots :
    (¬['{', '{'] <:+: ['{']) ∧
    tryResolve .standard (.object [("n", .string "x")])
        (String.ofList (written trickySlots ['{'])) =
      .ok "a\x7d\x7d\x7b\x7b\"\x7dbX\x7b" ∧
    resolve .standard (.object []) (String.ofList (written trickySlots ['{'])) =
      "a \x7b\x7b- \"\x7d\x7d\x7b\x7b\\\"\" -\x7d\x7d \x7db\x7b\x7b .n | upper\x7d\x7d\x7b" := by
  have htail : ¬['{', '{'] <:+: ['{'] := by decide
  refine ⟨htail, ?_, ?_⟩
  · let value : Slot → Value := fun s ↦
      .string (if s.trimsBefore then "\x7d\x7d\x7b\x7b\"" else "X")
    have hvalue : ∀ s ∈ trickySlots,
        evaluate ⟨.object [("n", .string "x")], .object [("n", .string "x")], .standard⟩ s.action =
          .ok (value s) ∧ value s ≠ .null := by
      intro s hs
      rcases (by simpa [trickySlots] using hs) with rfl | rfl <;> exact ⟨rfl, nofun⟩
    have hfilled : String.ofList (filled (fun s ↦ (value s).printNested) false trickySlots ['{']) =
        "a\x7d\x7d\x7b\x7b\"\x7dbX\x7b" := by decide
    rw [← hfilled]
    exact (substitution_exact trickySlots htail _ _).2.1 value hvalue
  · have hfails : ∃ s ∈ trickySlots, ∀ v,
        evaluate ⟨.object [], .object [], .standard⟩ s.action = .ok v → v = .null := by
      refine ⟨_, List.mem_cons_of_mem _ (List.mem_singleton_self _), fun v hv ↦ ?_⟩
      have herror : evaluate ⟨.object [], .object [], .standard⟩
          [.operand (.field ["n"]), .call "upper" []] =
          .error (.helper "upper" (.notString "nil")) := rfl
      rw [herror] at hv
      simp at hv
    have h := (substitution_exact trickySlots htail .standard (.object [])).2.2 hfails
    rwa [show String.ofList (written trickySlots ['{']) =
      "a \x7b\x7b- \"\x7d\x7d\x7b\x7b\\\"\" -\x7d\x7d \x7db\x7b\x7b .n | upper\x7d\x7d\x7b" by
        decide] at h ⊢

end Fragment

end PagedReport
