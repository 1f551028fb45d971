import PagedReport.Proofs.Placeholder.Piping
import PagedReport.Proofs.Placeholder.Substitution

/-!
# Comments

The scan for a closing mark reads the text of a comment as it reads an action.  A comment that
leaves it outside of strings, at its own closing mark, leaves nothing behind: splitting goes on as
if the fragment began there.  Only a mark for trimming behind the comment sees it, since the blanks
that it takes are those of the text beside it.
-/

namespace PagedReport

namespace Fragment

/-! ## Closing -/

/-- A scan over the text stays open and ends outside of strings. -/
def closed : Inside → List Char → Bool
  | .action, [] => true
  | _, [] => false
  | .action, '}' :: '}' :: _ => false
  | i, c :: cs => closed (i.after c) cs

theorem closed_cons {i : Inside} {c : Char} {cs : List Char}
    (h : i = .action → c = '}' → ∀ ds, cs ≠ '}' :: ds) :
    closed i (c :: cs) = closed (i.after c) cs :=
  closed.eq_4 i c cs fun ds hi hc ↦ h hi hc ds

theorem findClose_ne_nil {i : Inside} (h : i ≠ .action) (cs rest : List Char) :
    findClose i cs ≠ some ([], rest) := by
  cases cs with
  | nil => simp [findClose]
  | cons c cs =>
      rw [findClose_cons fun hi ↦ absurd hi h]
      simp

/-- A scan stops at the closing mark of a comment if and only if its text leaves it outside of
strings. -/
theorem findClose_comment (i : Inside) (c rest : List Char) :
    findClose i (c ++ '*' :: '/' :: '}' :: '}' :: rest) = some (c ++ ['*', '/'], rest) ↔
      closed i c = true := by
  induction c generalizing i with
  | nil =>
      rw [List.nil_append, findClose_cons (by simp), findClose_cons (by simp)]
      cases i with
      | action => simp [Inside.after, findClose, closed]
      | quotes | escape =>
          simpa [Inside.after, closed] using findClose_ne_nil Inside.noConfusion _ rest
      | backticks => simpa [Inside.after, closed] using findClose_ne_nil Inside.noConfusion _ rest
  | cons d c ih =>
      by_cases hd : i = .action → d = '}' → ∀ ds, c ≠ '}' :: ds
      · rw [closed_cons hd, ← ih, List.cons_append, findClose_cons]
        · simp
        · rintro hi rfl ds heq
          cases c with
          | nil => cases heq
          | cons e c => exact hd hi rfl c (congrArg (· :: c) (List.cons.inj heq).1)
      · simp only [Classical.not_imp, not_forall, not_not] at hd
        obtain ⟨rfl, rfl, ds, rfl⟩ := hd
        simp [findClose, closed]

/-! ## Splitting without fuel -/

theorem eq_of_findOpen {cs before after : List Char} (h : findOpen cs = some (before, after)) :
    cs = before ++ '{' :: '{' :: after := by
  fun_induction findOpen cs generalizing before with
  | case1 => cases h
  | case2 cs =>
      cases h
      rfl
  | case3 c cs _ behind rest hrest ih =>
      cases h
      exact congrArg (c :: ·) (ih hrest)
  | case4 => cases h

theorem eq_of_findClose {i : Inside} {cs inside rest : List Char}
    (h : findClose i cs = some (inside, rest)) : cs = inside ++ '}' :: '}' :: rest := by
  induction cs generalizing i inside with
  | nil => simp [findClose] at h
  | cons c cs ih =>
      by_cases hc : i = .action → c = '}' → ∀ ds, cs ≠ '}' :: ds
      · rw [findClose_cons hc, Option.map_eq_some_iff] at h
        obtain ⟨⟨before, after⟩, hmore, heq⟩ := h
        cases heq
        exact congrArg (c :: ·) (ih hmore)
      · simp only [Classical.not_imp, not_forall, not_not] at hc
        obtain ⟨rfl, rfl, ds, rfl⟩ := hc
        rw [findClose] at h
        cases h
        rfl

theorem length_lt_of_findOpen {cs before after inside rest : List Char}
    (hopen : findOpen cs = some (before, after))
    (hclose : findClose .action after = some (inside, rest)) : rest.length < cs.length := by
  rw [eq_of_findOpen hopen, eq_of_findClose hclose]
  simp only [List.length_append, List.length_cons]
  omega

theorem toOption_splitFrom_of_action (fragment : String) (fuel : Nat) (trims : Bool)
    {cs before after inside rest : List Char} (hopen : findOpen cs = some (before, after))
    (hclose : findClose .action after = some (inside, rest)) :
    (splitFrom fragment (fuel + 1) trims cs).toOption =
      (actionSegment (marked inside).body).toOption.bind fun action ↦
        (splitFrom fragment fuel (marked inside).trimsAfter rest).toOption.map fun more ↦
          textSegment (shorn trims (marked inside).trimsBefore before) ++ action :: more := by
  rw [splitFrom, hopen]
  simp only [hclose, toOption_bind]
  congr 1
  funext action
  cases splitFrom fragment fuel (marked inside).trimsAfter rest <;> rfl

/-- Every action takes characters away, so fuel for all of them is enough. -/
theorem toOption_splitFrom_fuel (fragment fragment' : String) {fuel fuel' : Nat} (trims : Bool)
    {cs : List Char} (hfuel : cs.length < fuel) (hfuel' : cs.length < fuel') :
    (splitFrom fragment fuel trims cs).toOption =
      (splitFrom fragment' fuel' trims cs).toOption := by
  induction fuel generalizing fuel' trims cs with
  | zero => cases hfuel
  | succ fuel ih =>
      obtain ⟨fuel', rfl⟩ := Nat.exists_eq_succ_of_ne_zero (Nat.ne_of_gt (Nat.zero_lt_of_lt hfuel'))
      cases hopen : findOpen cs with
      | none => simp [splitFrom, hopen]
      | some r =>
          obtain ⟨before, after⟩ := r
          cases hclose : findClose .action after with
          | none => simp [splitFrom, hopen, hclose, Except.toOption]
          | some r =>
              obtain ⟨inside, rest⟩ := r
              have hlt := length_lt_of_findOpen hopen hclose
              have hmore : (splitFrom fragment fuel (marked inside).trimsAfter rest).toOption =
                  (splitFrom fragment' fuel' (marked inside).trimsAfter rest).toOption :=
                ih _ (by omega) (by omega)
              rw [toOption_splitFrom_of_action fragment fuel trims hopen hclose,
                toOption_splitFrom_of_action fragment' fuel' trims hopen hclose, hmore]

/-- The segments of the rest of a fragment. -/
def segments? (trims : Bool) (cs : List Char) : Option (List Segment) :=
  (splitFrom "" (cs.length + 1) trims cs).toOption

theorem toOption_split (cs : List Char) :
    (split (String.ofList cs)).toOption = segments? false cs := by
  rw [split, String.toList_ofList]
  apply toOption_splitFrom_fuel <;> simp

theorem segments?_of_plain (trims : Bool) {cs : List Char} (hopen : findOpen cs = none) :
    segments? trims cs = some (textSegment (shorn trims false cs)) := by
  simp [segments?, splitFrom, hopen, shorn, Except.toOption]

theorem segments?_of_unclosed (trims : Bool) {cs before after : List Char}
    (hopen : findOpen cs = some (before, after)) (hclose : findClose .action after = none) :
    segments? trims cs = none := by
  simp [segments?, splitFrom, hopen, hclose, Except.toOption]

theorem segments?_of_action (trims : Bool) {cs before after inside rest : List Char}
    (hopen : findOpen cs = some (before, after))
    (hclose : findClose .action after = some (inside, rest)) :
    segments? trims cs =
      (actionSegment (marked inside).body).toOption.bind fun action ↦
        (segments? (marked inside).trimsAfter rest).map fun more ↦
          textSegment (shorn trims (marked inside).trimsBefore before) ++ action :: more := by
  have hlt := length_lt_of_findOpen hopen hclose
  rw [segments?, toOption_splitFrom_of_action "" cs.length trims hopen hclose,
    toOption_splitFrom_fuel "" "" _ hlt (Nat.lt_succ_self _)]
  rfl

/-! ## Comments in fragments -/

/-- A comment behind a literal text. -/
def commented (t c rest : List Char) : List Char :=
  t ++ '{' :: '{' :: '/' :: '*' :: (c ++ '*' :: '/' :: '}' :: '}' :: rest)

theorem marked_comment (c : List Char) :
    marked ('/' :: '*' :: (c ++ ['*', '/'])) = ⟨'/' :: '*' :: (c ++ ['*', '/']), false, false⟩ := by
  rw [marked_of_ne (by simp)]
  simp [dropEndMark]

theorem actionSegment_comment (c : List Char) :
    actionSegment ('/' :: '*' :: (c ++ ['*', '/'])) = .ok .comment := by
  have hlast : ('/' :: '*' :: (c ++ ['*', '/'])).getLast? = some '/' := by
    simp [List.getLast?_cons]
  have htrim : trimBoth ('/' :: '*' :: (c ++ ['*', '/'])) = '/' :: '*' :: (c ++ ['*', '/']) := by
    apply trimBoth_eq_self
    · rintro d ⟨⟩
      decide
    · rw [hlast]
      rintro d ⟨⟩
      decide
  simp [actionSegment, isComment, htrim]

theorem segments?_commented {t c : List Char} (ht : ¬['{', '{'] <:+: t)
    (hlast : t.getLast? ≠ some '{') (hc : closed .action c = true) (rest : List Char) :
    segments? false (commented t c rest) =
      (segments? false rest).map (textSegment t ++ .comment :: ·) := by
  have hopen : findOpen (commented t c rest) =
      some (t, '/' :: '*' :: (c ++ '*' :: '/' :: '}' :: '}' :: rest)) := by
    rw [commented, findOpen_append ht hlast]
    simp [findOpen]
  have hclose : findClose .action ('/' :: '*' :: (c ++ '*' :: '/' :: '}' :: '}' :: rest)) =
      some ('/' :: '*' :: (c ++ ['*', '/']), rest) :=
    (findClose_comment .action ('/' :: '*' :: c) rest).mpr
      (by simpa [closed, Inside.after] using hc)
  rw [segments?_of_action false hopen hclose, marked_comment, actionSegment_comment]
  rfl

end Fragment

open Fragment

/-! ## Texts -/

/-- The text of segments. -/
def rendered? (scope : Scope) (segments : List Segment) : Option (List Char) :=
  (segments.mapM (Segment.render scope "")).toOption.map List.flatten

variable (scope : Scope)

theorem toOption_render (fragment fragment' : String) (s : Segment) :
    (s.render scope fragment).toOption = (s.render scope fragment').toOption := by
  cases s with
  | text | comment => rfl
  | action p =>
      rw [Segment.render, Segment.render, toOption_bind, toOption_bind]
      congr 1
      funext v
      cases v.print? <;> rfl

theorem toOption_mapM_cons {α β ε : Type} (f : α → Except ε β) (x : α) (xs : List α) :
    ((x :: xs).mapM f).toOption =
      (f x).toOption.bind fun y ↦ (xs.mapM f).toOption.map (y :: ·) := by
  rw [List.mapM_cons, toOption_bind]
  congr 1
  funext y
  cases xs.mapM f <;> rfl

theorem toOption_mapM_render (fragment : String) (segments : List Segment) :
    (segments.mapM (Segment.render scope fragment)).toOption.map List.flatten =
      rendered? scope segments := by
  have htexts : (segments.mapM (Segment.render scope fragment)).toOption =
      (segments.mapM (Segment.render scope "")).toOption := by
    induction segments with
    | nil => rfl
    | cons s segments ih =>
        rw [toOption_mapM_cons, toOption_mapM_cons, toOption_render scope fragment "", ih]
  rw [htexts, rendered?]

theorem rendered?_cons (s : Segment) (segments : List Segment) :
    rendered? scope (s :: segments) =
      (s.render scope "").toOption.bind fun cs ↦ (rendered? scope segments).map (cs ++ ·) := by
  rw [rendered?, toOption_mapM_cons, rendered?]
  cases (s.render scope "").toOption with
  | none => rfl
  | some cs => simp [Function.comp_def]

theorem rendered?_comment (segments : List Segment) :
    rendered? scope (.comment :: segments) = rendered? scope segments := by
  rw [rendered?_cons]
  exact Option.map_id'

theorem rendered?_text (cs : List Char) (segments : List Segment) :
    rendered? scope (textSegment cs ++ segments) = (rendered? scope segments).map (cs ++ ·) := by
  cases cs with
  | nil => exact Option.map_id'.symm
  | cons c cs => exact rendered?_cons scope (.text (c :: cs)) segments

/-- The text of the rest of a fragment. -/
def resolved? (cs : List Char) : Option (List Char) :=
  (segments? false cs).bind (rendered? scope)

theorem toOption_tryResolve (helpers : Helpers) (data : Value) (cs : List Char) :
    (tryResolve helpers data (String.ofList cs)).toOption =
      (resolved? ⟨data, data, helpers⟩ cs).map String.ofList := by
  rw [tryResolve, toOption_bind, toOption_split, resolved?, Option.map_bind]
  congr 1
  funext segments
  rw [toOption_bind, Function.comp_apply, ← toOption_mapM_render _ (String.ofList cs),
    Option.map_map]
  cases segments.mapM (Segment.render ⟨data, data, helpers⟩ (String.ofList cs)) <;> rfl

theorem resolved?_commented {t c : List Char} (ht : ¬['{', '{'] <:+: t)
    (hlast : t.getLast? ≠ some '{') (hc : closed .action c = true) (rest : List Char) :
    resolved? scope (commented t c rest) = (resolved? scope rest).map (t ++ ·) := by
  rw [resolved?, segments?_commented ht hlast hc, resolved?, Option.bind_map, Option.map_bind]
  congr 1
  funext segments
  rw [Function.comp_apply, rendered?_text, rendered?_comment]
  rfl

/-- A fragment begins, blanks apart, with an action that trims what stands before it. -/
def Trims (rest : List Char) : Prop := ['{', '{', '-', ' '] <+: trimLeft rest

instance (rest : List Char) : Decidable (Trims rest) := inferInstanceAs (Decidable (_ <+: _))

theorem marked_trimsBefore (inside : List Char) :
    (marked inside).trimsBefore = true ↔ ['-', ' '] <+: inside := by
  rcases em (∃ ds, inside = '-' :: ' ' :: ds) with ⟨ds, rfl⟩ | hne
  · simp only [marked]
    cases dropEndMark ds <;> simp
  · have hmark : ¬['-', ' '] <+: inside := by
      rintro ⟨ds, heq⟩
      exact hne ⟨ds, heq.symm⟩
    rw [marked_of_ne fun ds heq ↦ hne ⟨ds, heq⟩]
    cases dropEndMark inside <;> simp [hmark]

theorem findOpen_of_trims {rest : List Char} (h : Trims rest) :
    ∃ blanks after, (∀ c ∈ blanks, isBlank c = true) ∧
      findOpen rest = some (blanks, '-' :: ' ' :: after) := by
  obtain ⟨after, hafter⟩ := h
  obtain ⟨blanks, hblanks, hrest⟩ := trimLeft_eq rest
  have hno : '{' ∉ blanks := fun hin ↦ absurd (hblanks _ hin) (by decide)
  refine ⟨blanks, after, hblanks, ?_⟩
  rw [hrest, ← hafter, findOpen_append]
  · simp [findOpen]
  · exact fun hin ↦ hno (hin.subset (by simp))
  · exact fun hlast ↦ hno (List.mem_of_getLast? hlast)

/-- The first action of a fragment trims what stands before it if it has a mark and only blanks
before it. -/
theorem trims_iff {rest before after inside behind : List Char}
    (hopen : findOpen rest = some (before, after))
    (hclose : findClose .action after = some (inside, behind)) :
    Trims rest ↔ (marked inside).trimsBefore = true ∧ ∀ c ∈ before, isBlank c = true := by
  rw [marked_trimsBefore]
  constructor
  · intro h
    obtain ⟨blanks, ds, hblanks, heq⟩ := findOpen_of_trims h
    cases hopen.symm.trans heq
    rw [findClose_cons (by simp), findClose_cons (by simp), Option.map_map,
      Option.map_eq_some_iff] at hclose
    obtain ⟨r, -, heq⟩ := hclose
    cases heq
    exact ⟨⟨r.1, rfl⟩, hblanks⟩
  · rintro ⟨⟨ds, rfl⟩, hblanks⟩
    rw [eq_of_findOpen hopen, eq_of_findClose hclose, Trims, trimLeft,
      List.dropWhile_append_of_pos hblanks, List.dropWhile_cons_of_neg (by decide)]
    exact ⟨ds ++ '}' :: '}' :: behind, rfl⟩

theorem shorn_append {rest before after inside behind : List Char}
    (hopen : findOpen rest = some (before, after))
    (hclose : findClose .action after = some (inside, behind)) (t : List Char) :
    shorn false (marked inside).trimsBefore (t ++ before) =
      (if Trims rest then trimRight t else t) ++
        shorn false (marked inside).trimsBefore before := by
  have htrims := trims_iff hopen hclose
  by_cases hmark : (marked inside).trimsBefore = true
  · by_cases hblanks : ∀ c ∈ before, isBlank c = true
    · rw [if_pos (htrims.mpr ⟨hmark, hblanks⟩)]
      simp [shorn, hmark, trimRight_append hblanks, trimRight_of_forall hblanks]
    · rw [if_neg fun h ↦ hblanks (htrims.mp h).2]
      simp [shorn, hmark, trimRight_append_of_not hblanks]
  · rw [if_neg fun h ↦ hmark (htrims.mp h).1]
    simp [shorn, hmark]

theorem resolved?_append {t : List Char} (ht : ¬['{', '{'] <:+: t)
    (hlast : t.getLast? ≠ some '{') (rest : List Char) :
    resolved? scope (t ++ rest) =
      (resolved? scope rest).map ((if Trims rest then trimRight t else t) ++ ·) := by
  have hwhole := findOpen_append ht hlast rest
  cases hopen : findOpen rest with
  | none =>
      have hplain : ¬Trims rest := by
        intro h
        obtain ⟨blanks, after, -, heq⟩ := findOpen_of_trims h
        rw [hopen] at heq
        cases heq
      rw [hopen] at hwhole
      rw [resolved?, segments?_of_plain false hwhole, resolved?, segments?_of_plain false hopen,
        if_neg hplain]
      have htext (cs : List Char) : rendered? scope (textSegment cs) = some cs := by
        simpa [rendered?, Except.toOption, pure, Except.pure] using rendered?_text scope cs []
      simp [shorn, htext]
  | some r =>
      obtain ⟨before, after⟩ := r
      rw [hopen] at hwhole
      cases hclose : findClose .action after with
      | none =>
          rw [resolved?, segments?_of_unclosed false hwhole hclose, resolved?,
            segments?_of_unclosed false hopen hclose]
          rfl
      | some r =>
          obtain ⟨inside, behind⟩ := r
          rw [resolved?, segments?_of_action false hwhole hclose, resolved?,
            segments?_of_action false hopen hclose, shorn_append hopen hclose]
          cases (actionSegment (marked inside).body).toOption with
          | none => rfl
          | some action =>
              cases segments? (marked inside).trimsAfter behind with
              | none => rfl
              | some more =>
                  simp [rendered?_text, Function.comp_def]

theorem resolve_of_ok {helpers : Helpers} {data : Value} {cs ds : List Char}
    (h : resolved? ⟨data, data, helpers⟩ cs = some ds) :
    resolve helpers data (String.ofList cs) = String.ofList ds := by
  have htry := toOption_tryResolve helpers data cs
  rw [h, Option.map_some, toOption_eq_some_iff] at htry
  rw [resolve, htry]

theorem resolve_of_error {helpers : Helpers} {data : Value} {cs : List Char}
    (h : resolved? ⟨data, data, helpers⟩ cs = none) :
    resolve helpers data (String.ofList cs) = String.ofList cs := by
  have htry := toOption_tryResolve helpers data cs
  rw [h, Option.map_none] at htry
  unfold resolve
  split
  · next s hs =>
      rw [hs] at htry
      cases htry
  · rfl

/-- A comment over which the scan stays open is a segment of its own, and what stands behind it is
split as if the fragment began there.  If that has a text, the comment leaves nothing between it and
the text before the comment; if not, the fragment stays as it is.  The same fragment without the
comment has the same text, but for the blanks that an action behind the comment trims. -/
theorem comment_vanishes {t c : List Char} (ht : ¬['{', '{'] <:+: t)
    (hlast : t.getLast? ≠ some '{') (hc : closed .action c = true) (rest : List Char) :
    (split (String.ofList (commented t c rest))).toOption =
      (split (String.ofList rest)).toOption.map (textSegment t ++ .comment :: ·) ∧
    ∀ (helpers : Helpers) (data : Value),
      (∀ s, tryResolve helpers data (String.ofList rest) = .ok s →
        resolve helpers data (String.ofList (commented t c rest)) = String.ofList t ++ s ∧
        resolve helpers data (String.ofList (t ++ rest)) =
          String.ofList (if Trims rest then trimRight t else t) ++ s) ∧
      ∀ e, tryResolve helpers data (String.ofList rest) = .error e →
        resolve helpers data (String.ofList (commented t c rest)) =
          String.ofList (commented t c rest) ∧
        resolve helpers data (String.ofList (t ++ rest)) = String.ofList (t ++ rest) := by
  refine ⟨?_, fun helpers data ↦ ?_⟩
  · rw [toOption_split, toOption_split, segments?_commented ht hlast hc]
  have hwith := resolved?_commented ⟨data, data, helpers⟩ ht hlast hc rest
  have hwithout := resolved?_append ⟨data, data, helpers⟩ ht hlast rest
  have htry := toOption_tryResolve helpers data rest
  constructor
  · intro s hs
    rw [hs, eq_comm, Except.toOption, Option.map_eq_some_iff] at htry
    obtain ⟨ds, hds, rfl⟩ := htry
    rw [hds] at hwith hwithout
    rw [resolve_of_ok hwith, resolve_of_ok hwithout, String.ofList_append, String.ofList_append]
    exact ⟨rfl, rfl⟩
  · intro e he
    rw [he, eq_comm, Except.toOption, Option.map_eq_none_iff] at htry
    rw [htry] at hwith hwithout
    exact ⟨resolve_of_error hwith, resolve_of_error hwithout⟩

/-- The text of a comment that holds strings with closing marks, an opening mark, a backslash, a
lone closing brace and the end of a comment. -/
def noise : List Char := " \"\x7d\x7d\\\"\" `\x7d\x7d\\` \x7b\x7b \\ \x7d */ ".toList

/-- An action that trims the text before it. -/
def trimming : List Char := ['{', '{', '-', ' ', '`', 'x', '`', '}', '}']

theorem comment_vanishes_noise :
    ¬['{', '{'] <:+: ['a', ' '] ∧ closed .action noise = true ∧
    resolve .standard (.object []) (String.ofList (commented ['a', ' '] noise trimming)) = "a x" ∧
    resolve .standard (.object []) (String.ofList (['a', ' '] ++ trimming)) = "ax" := by
  have ht : ¬['{', '{'] <:+: ['a', ' '] := by decide
  have hclosed : closed .action noise = true := by decide
  have hrest : tryResolve .standard (.object []) (String.ofList trimming) = .ok "x" :=
    toOption_eq_some_iff.mp (toOption_tryResolve .standard (.object []) trimming)
  obtain ⟨-, hresolve⟩ := comment_vanishes ht (by decide) hclosed trimming
  obtain ⟨hwith, hwithout⟩ := (hresolve .standard (.object [])).1 "x" hrest
  rw [if_pos (by decide)] at hwithout
  exact ⟨ht, hclosed, hwith.trans (by decide), hwithout.trans (by decide)⟩

/-- A lone quote in a comment keeps the scan from the comment's end, and an action behind a comment
does not trim what stands before the comment. -/
theorem not_comment_vanishes :
    (¬∀ t c rest : List Char, ¬['*', '/'] <:+: c → ¬['{', '{'] <:+: t → t.getLast? ≠ some '{' →
      (split (String.ofList (commented t c rest))).toOption =
        (split (String.ofList rest)).toOption.map (textSegment t ++ .comment :: ·)) ∧
    ¬∀ (t c rest : List Char) (helpers : Helpers) (data : Value),
      ¬['*', '/'] <:+: c → ¬['{', '{'] <:+: t → t.getLast? ≠ some '{' →
      resolve helpers data (String.ofList (commented t c rest)) =
        resolve helpers data (String.ofList (t ++ rest)) := by
  constructor
  · intro h
    have hquote := h ['a'] ['"'] ['b'] (by decide) (by decide) (by decide)
    rw [toOption_split, toOption_split] at hquote
    have hnone : segments? false (commented ['a'] ['"'] ['b']) = none := by rfl
    rw [hnone] at hquote
    cases hquote
  · intro h
    have htrim := h ['a', ' '] ['c'] trimming .standard (.object []) (by decide) (by decide)
      (by decide)
    have hwith : resolved? ⟨.object [], .object [], .standard⟩
        (commented ['a', ' '] ['c'] trimming) = some ['a', ' ', 'x'] := by rfl
    have hwithout : resolved? ⟨.object [], .object [], .standard⟩
        (['a', ' '] ++ trimming) = some ['a', 'x'] := by rfl
    rw [resolve_of_ok hwith, resolve_of_ok hwithout] at htrim
    exact absurd htrim (by decide)

end PagedReport
