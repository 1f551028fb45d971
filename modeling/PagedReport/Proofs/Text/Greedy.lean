import PagedReport.Proofs.Number.Rational
import PagedReport.Proofs.Text.Lines

/-!
# Full lines

If lengths are in a linear order, every line fits that has more than one character, and no line ends
before it has to.  So no other division of the words of a paragraph has fewer lines: the lines of
any other one are never ahead.
-/

namespace PagedReport

namespace Wrap

variable {K : Type} [Scalar K] {max : K} {width : List Char → K}

variable {ws : Words} {rows : List Words}

/-! ## No line ends early -/

variable (max width) in
/-- A line, up to which the characters `set` are set, had no room for more: neither for a space and
the next word nor, inside a word wider than a line, for the next character. -/
def Forced (ws : Words) (set line : List Char) : Prop :=
  ∃ earlier w later, ws = earlier ++ w :: later ∧
    (set = earlier.flatten ∧ max < width (line ++ ' ' :: w) ∨
      max < width w ∧ ∃ start c rest, w = start ++ c :: rest ∧ line ≠ [] ∧ line <:+ start ∧
        set = earlier.flatten ++ start ∧ max < width (line ++ [c]))

theorem Forced.concat {set line : List Char} (h : Forced max width ws set line) (w : List Char) :
    Forced max width (ws ++ [w]) set line := by
  obtain ⟨earlier, v, later, rfl, hforced⟩ := h
  exact ⟨earlier, v, later ++ [w], by simp, hforced⟩

section

variable [Std.IsLinearOrder K] [Std.LawfulOrderLT K]

/-- A word that has to stand elsewhere makes the last row full. -/
theorem Sets.forced_of_noRoom {w : List Char} (h : Sets max width ws rows)
    (hws : ∀ w ∈ ws, IsWord w) (hfull : NoRoom max width rows w) {above after : List Words}
    {row : Words} (hrows : rows = above ++ row :: after)
    (hforced : after ≠ [] → Forced max width ws (above ++ [row]).flatten.flatten (spaced row)) :
    Forced max width (ws ++ [w]) (above ++ [row]).flatten.flatten (spaced row) := by
  by_cases hafter : after = []
  · obtain rfl : rows = above ++ [row] := hafter ▸ hrows
    have hwide := hfull row (by simp)
    rw [spaced_concat (h.isWord hws row List.mem_concat_self).1] at hwide
    exact ⟨ws, w, [], rfl, .inl ⟨h.content, Std.not_le.mp hwide⟩⟩
  · exact (hforced hafter).concat w

/-- Inside a word that is cut, the next character makes a piece full. -/
theorem IsCut.forced {w : List Char} {pieces : Words} (h : IsCut max width w pieces)
    (hwide : ¬ width w ≤ max) {before after : List Words} {row : Words}
    (hpieces : (pieces.map fun piece ↦ [piece]) = before ++ row :: after) (hafter : after ≠ [])
    (ws : Words) : Forced max width (ws ++ [w])
      (ws.flatten ++ (before ++ [row]).flatten.flatten) (spaced row) := by
  obtain ⟨qs, rest, rfl, rfl, hrest⟩ := List.map_eq_append_iff.mp hpieces
  obtain ⟨q, rest, rfl, rfl, rfl⟩ := List.map_eq_cons_iff.mp hrest
  obtain ⟨next, rest, rfl⟩ := List.exists_cons_of_ne_nil (mt (congrArg (List.map _)) hafter)
  obtain ⟨⟨c, hc, hnext⟩, -⟩ := List.isChain_cons_cons.mp (List.isChain_append.mp h.full).2.1
  obtain ⟨cs, rfl⟩ := List.head?_eq_some_iff.mp hc
  have hq : q ≠ [] := fun heq ↦ h.nonempty (by simp [heq])
  refine ⟨ws, w, [], rfl, .inr ⟨Std.not_le.mp hwide, qs.flatten ++ q, c, cs ++ rest.flatten, ?_, ?_,
    ?_, ?_, ?_⟩⟩
  · rw [← h.flatten]
    simp
  · rwa [spaced_singleton]
  · rw [spaced_singleton]
    exact List.suffix_append qs.flatten q
  · rw [List.flatten_append, flatten_singletons]
    simp
  · rwa [spaced_singleton]

/-- All rows but the last are full. -/
theorem Sets.forced (h : Sets max width ws rows) (hws : ∀ w ∈ ws, IsWord w)
    {above after : List Words} {row : Words} (hrows : rows = above ++ row :: after)
    (hafter : after ≠ []) :
    Forced max width ws (above ++ [row]).flatten.flatten (spaced row) := by
  induction h generalizing above after row with
  | none => simp at hrows
  | @joins ws rows last w hset _ ih =>
      rcases concat_eq_append_cons hrows with ⟨-, -, rfl⟩ | ⟨after, rfl, -⟩
      · exact absurd rfl hafter
      · have hbefore : above ++ row :: after ++ [last] = above ++ row :: (after ++ [last]) := by
          simp
        exact (ih (List.forall_mem_append.mp hws).1 hbefore (by simp)).concat w
  | begins hset hfull _ ih =>
      rcases concat_eq_append_cons hrows with ⟨-, -, rfl⟩ | ⟨after, heq, -⟩
      · exact absurd rfl hafter
      · obtain ⟨hbefore, -⟩ := List.forall_mem_append.mp hws
        exact hset.forced_of_noRoom hbefore hfull heq (ih hbefore heq)
  | @cut ws rows w pieces hset hfull hwide hcut ih =>
      obtain ⟨hbefore, -⟩ := List.forall_mem_append.mp hws
      rcases List.append_eq_append_iff.mp hrows with ⟨between, rfl, hpieces⟩ | ⟨between, heq, hrest⟩
      · have hforced := hcut.forced hwide hpieces hafter ws
        rw [← hset.content] at hforced
        simpa using hforced
      · cases between with
        | nil =>
            have hpieces : (pieces.map fun piece ↦ [piece]) = [] ++ row :: after := hrest.symm
            have hforced := hcut.forced hwide hpieces hafter ws
            rw [← hset.content, heq] at hforced
            simpa using hforced
        | cons first between =>
            obtain ⟨rfl, -⟩ := List.cons.inj hrest
            exact hset.forced_of_noRoom hbefore hfull heq (ih hbefore heq)

/-! ## Every line fits -/

/-- A row that is too wide is a single character. -/
theorem Sets.fits (h : Sets max width ws rows) :
    ∀ row ∈ rows, width (spaced row) ≤ max ∨ (spaced row).length = 1 := by
  induction h with
  | none => exact nofun
  | joins _ hjoins ih =>
      obtain ⟨hrows, -⟩ := List.forall_mem_append.mp ih
      exact List.forall_mem_append.mpr ⟨hrows, List.forall_mem_singleton.mpr (.inl hjoins)⟩
  | @begins _ _ w _ _ hfits ih =>
      rw [← spaced_singleton w] at hfits
      exact List.forall_mem_append.mpr ⟨ih, List.forall_mem_singleton.mpr (.inl hfits)⟩
  | cut _ _ _ hcut ih =>
      refine List.forall_mem_append.mpr ⟨ih, fun row hrow ↦ ?_⟩
      obtain ⟨piece, hpiece, rfl⟩ := List.mem_map.mp hrow
      rw [spaced_singleton]
      exact (hcut.fits piece hpiece).imp_left Std.not_lt.mp

end

/-! ## No division has fewer lines -/

section

variable [Std.IsLinearOrder K]

variable (width) in
/-- A line does not get wider when words are removed from its ends. -/
def Narrowing : Prop :=
  ∀ left row right : Words, row ≠ [] → width (spaced row) ≤ width (spaced (left ++ row ++ right))

/-- The place of the last word in a division. -/
theorem flatten_eq_concat {parts : List Words} {w : List Char} (h : parts.flatten = ws ++ [w]) :
    ∃ before last after, parts = before ++ (last ++ [w]) :: after ∧
      (before ++ [last]).flatten = ws := by
  induction parts using List.reverseRecOn with
  | nil => simp at h
  | append_singleton parts part ih =>
      rcases part.eq_nil_or_concat' with rfl | ⟨last, v, rfl⟩
      · obtain ⟨before, last, after, rfl, hws⟩ := ih (by simpa using h)
        exact ⟨before, last, after ++ [[]], by simp, hws⟩
      · rw [List.flatten_append, List.flatten_singleton, ← List.append_assoc] at h
        obtain ⟨hws, heq⟩ := List.append_inj' h rfl
        exact ⟨parts, last, [], by rw [List.singleton_inj.mp heq], by simpa using hws⟩

variable (max width) in
/-- Lines without words are no wider than any. -/
def AllFit (parts : List Words) : Prop := ∀ part ∈ parts, part ≠ [] → width (spaced part) ≤ max

/-- A division without its last word is one of the words before. -/
theorem AllFit.dropWord (hwidth : Narrowing width) {before : List Words} {last : Words}
    {w : List Char} (hparts : AllFit max width (before ++ [last]))
    (hflatten : (before ++ [last]).flatten = ws ++ [w]) :
    ∃ before' last', AllFit max width (before' ++ [last']) ∧ (before' ++ [last']).flatten = ws ∧
      width (spaced (last' ++ [w])) ≤ max ∧
      (before' = before ∧ last' ++ [w] = last ∨ before'.length < before.length) := by
  obtain ⟨before', last', after, heq, hws⟩ := flatten_eq_concat hflatten
  rw [heq] at hparts
  have hlast : width (spaced (last' ++ [w])) ≤ max := hparts _ (by simp) (by simp)
  refine ⟨before', last', List.forall_mem_append.mpr ⟨fun part hpart ↦ ?_, ?_⟩, hws, hlast, ?_⟩
  · exact hparts part (List.mem_append_left _ hpart)
  · exact List.forall_mem_singleton.mpr fun hne ↦ Std.le_trans (hwidth [] last' [w] hne) hlast
  · rcases concat_eq_append_cons heq with ⟨hbefore, hlast, -⟩ | ⟨after, rfl, -⟩
    · exact .inl ⟨hbefore, hlast⟩
    · exact .inr (by simp)

/-- A division is never ahead: it has lines in front of its last one for all rows, or for all but
the last and then stands on its last line as much as in the last row. -/
theorem Sets.ahead (h : Sets max width ws rows) (hfits : ∀ w ∈ ws, width w ≤ max)
    (hwidth : Narrowing width) {before : List Words} {last : Words}
    (hparts : AllFit max width (before ++ [last])) (hflatten : (before ++ [last]).flatten = ws) :
    rows.length ≤ before.length ∨
      ∃ above row, rows = above ++ [row] ∧ above.length = before.length ∧ row <:+ last := by
  induction h generalizing before last with
  | none => exact .inl (Nat.zero_le _)
  | @joins ws rows row w _ _ ih =>
      obtain ⟨before', last', hparts', hflatten', -, hlast⟩ := hparts.dropWord hwidth hflatten
      rcases ih (List.forall_mem_append.mp hfits).1 hparts' hflatten' with
        hahead | ⟨above, row', heq, hlength, hsuffix⟩
      · have hbefore : before'.length ≤ before.length := by
          rcases hlast with ⟨rfl, -⟩ | hless <;> omega
        simp only [List.length_append, List.length_singleton] at hahead ⊢
        exact .inl (by omega)
      · obtain ⟨rfl, hrow⟩ := List.append_inj' heq rfl
        obtain rfl := List.singleton_inj.mp hrow
        rcases hlast with ⟨rfl, rfl⟩ | hless
        · obtain ⟨front, rfl⟩ := hsuffix
          exact .inr ⟨rows, row ++ [w], rfl, hlength, front, by simp⟩
        · exact .inl (by simp only [List.length_append, List.length_singleton]; omega)
  | @begins ws rows w _ hfull _ ih =>
      obtain ⟨before', last', hparts', hflatten', hwide, hlast⟩ := hparts.dropWord hwidth hflatten
      rcases ih (List.forall_mem_append.mp hfits).1 hparts' hflatten' with
        hahead | ⟨above, row, rfl, hlength, front, rfl⟩
      · rcases hlast with ⟨rfl, rfl⟩ | hless
        · rcases Nat.lt_or_eq_of_le hahead with hless | heq
          · exact .inl (by simp only [List.length_append, List.length_singleton]; omega)
          · exact .inr ⟨rows, [w], rfl, heq, List.suffix_append _ _⟩
        · exact .inl (by simp only [List.length_append, List.length_singleton]; omega)
      · -- the last line of the division would have room for what the last row has no room for
        have hmore : width (spaced (row ++ [w])) ≤ width (spaced (front ++ row ++ [w])) := by
          simpa using hwidth front (row ++ [w]) [] (by simp)
        exact absurd (Std.le_trans hmore hwide) (hfull row (by simp))
  | cut _ _ hwide _ _ => exact absurd (hfits _ List.mem_concat_self) hwide

/-- The words of a paragraph have no division into fewer lines than there are rows. -/
theorem Sets.fewest (h : Sets max width ws rows) (hfits : ∀ w ∈ ws, width w ≤ max)
    (hwidth : Narrowing width) {division : List Words} (hdivision : division ≠ [])
    (hparts : AllFit max width division) (hflatten : division.flatten = ws) :
    (shown rows).length ≤ division.length := by
  obtain ⟨before, last, rfl⟩ := division.eq_nil_or_concat'.resolve_left hdivision
  rw [List.length_append, List.length_singleton]
  rcases h.ahead hfits hwidth hparts hflatten with hahead | ⟨above, row, rfl, hlength, -⟩
  · unfold shown
    split
    · simp
    · simpa using Nat.le_succ_of_le hahead
  · rw [shown_concat, List.length_append, List.length_map, hlength]
    simp

end

/-! ## Paragraphs -/

theorem unspaced_flatMap_spaced (hrows : ∀ row ∈ rows, ∀ piece ∈ row, IsWord piece) :
    unspaced (rows.flatMap spaced) = rows.flatten.flatten := by
  induction rows with
  | nil => rfl
  | cons row rows ih =>
      obtain ⟨hrow, hrest⟩ := List.forall_mem_cons.mp hrows
      simp [unspaced_spaced hrow, ih hrest]

variable (max width) in
/-- Lines of words that fit, of which none ends early and there are no more than are needed. -/
structure Greedy (ws : Words) (group : List WrappedLine) : Prop where
  fits : ∀ line ∈ group,
    width line.text ≤ max ∨ line.text.length = 1 ∨
      max < width [] ∧ ws = [] ∧ group = [⟨[], true⟩]
  forced : ∀ before line after, group = before ++ line :: after → line.hardBreak = false →
    Forced max width ws (unspaced ((before ++ [line]).flatMap (·.text))) line.text
  fewest : (∀ w ∈ ws, width w ≤ max) → Narrowing width → ∀ division : List Words,
    division ≠ [] → division.flatten = ws → (∀ part ∈ division, width (spaced part) ≤ max) →
    group.length ≤ division.length

variable [Std.IsLinearOrder K] [Std.LawfulOrderLT K]

/-- All lines but the last of a paragraph are full. -/
theorem Sets.forced_line (h : Sets max width ws rows) (hws : ∀ w ∈ ws, IsWord w)
    {before after : List WrappedLine} {line : WrappedLine}
    (htexts : rows.map spaced = (before ++ line :: after).map (·.text)) (hafter : after ≠ []) :
    Forced max width ws (unspaced ((before ++ [line]).flatMap (·.text))) line.text := by
  rw [List.map_append, List.map_cons] at htexts
  obtain ⟨above, rest, rfl, habove, hrest⟩ := List.map_eq_append_iff.mp htexts
  obtain ⟨row, below, rfl, hrow, hbelow⟩ := List.map_eq_cons_iff.mp hrest
  have hmore : below ≠ [] := by
    rintro rfl
    exact hafter (List.map_eq_nil_iff.mp hbelow.symm)
  have hfirst : ∀ row' ∈ above ++ [row], ∀ piece ∈ row', IsWord piece := fun row' hrow' ↦
    (h.isWord hws row' (List.append_cons above row below ▸ List.mem_append_left _ hrow')).2
  have hset : (before ++ [line]).flatMap (·.text) = (above ++ [row]).flatMap spaced := by
    rw [List.flatMap_def, List.flatMap_def, List.map_append, List.map_append, habove,
      List.map_singleton, List.map_singleton, hrow]
  rw [hset, unspaced_flatMap_spaced hfirst, ← hrow]
  exact h.forced hws rfl hmore

theorem paragraphLines_greedy (hroom : ¬ max ≤ 0) (paragraph : List Char) :
    Greedy max width (words paragraph) (paragraphLines max width paragraph) := by
  have hws : ∀ w ∈ words paragraph, IsWord w := fun w ↦ isWord_of_mem_words
  obtain ⟨rows, soft, last, hrows, hshown, hlines⟩ :=
    paragraphLines_sets width hroom paragraph
  have htexts : shown rows = (paragraphLines max width paragraph).map (·.text) := by
    rw [hshown, hlines]
    simp [Function.comp_def]
  refine ⟨fun line hline ↦ ?_, fun before line after heq hsoft ↦ ?_, ?_⟩
  · by_cases hnone : rows = []
    · subst hnone
      obtain ⟨rfl, rfl⟩ : soft = [] ∧ last = [] := by
        have hempty : [] ++ [[]] = soft ++ [last] := hshown
        obtain ⟨rfl, heq⟩ := List.append_inj' hempty rfl
        exact ⟨rfl, (List.singleton_inj.mp heq).symm⟩
      rw [hlines, List.map_nil, List.nil_append, List.mem_singleton] at hline
      rw [hline]
      by_cases hfits : width [] ≤ max
      · exact .inl hfits
      · exact .inr (.inr ⟨Std.not_le.mp hfits, hrows.eq_nil hws, hlines⟩)
    · have htext : line.text ∈ shown rows := htexts ▸ List.mem_map_of_mem hline
      rw [shown, if_neg hnone] at htext
      obtain ⟨row, hrow, heq⟩ := List.mem_map.mp htext
      rw [← heq]
      exact (hrows.fits row hrow).imp_right .inl
  · -- only the last line ends the paragraph, so there are lines behind this one
    have hafter : after ≠ [] := by
      rintro rfl
      obtain ⟨-, hend⟩ := List.append_inj' (hlines.symm.trans heq) rfl
      rw [← List.singleton_inj.mp hend] at hsoft
      cases hsoft
    rw [heq] at htexts
    refine hrows.forced_line hws ?_ hafter
    rw [← htexts, shown, if_neg]
    rintro rfl
    have hlength := congrArg List.length htexts
    have hmore := List.length_pos_iff.mpr hafter
    simp only [shown, if_true, List.map_cons, List.map_nil, List.length_cons, List.length_nil,
      List.length_map, List.length_append] at hlength
    omega
  · intro hfits hwidth division hdivision hflatten hparts
    have hlength := congrArg List.length htexts
    rw [List.length_map] at hlength
    rw [← hlength]
    exact hrows.fewest hfits hwidth hdivision (fun part hpart _ ↦ hparts part hpart) hflatten

/-- If there is room and lengths are in a linear order, the lines of each paragraph of a text are
greedy.  A line is no wider than the room, or it is a single character; a width that makes the empty
text wider than the room leaves a paragraph without words its one empty line.  A line that does not
end its paragraph ends because a space and the next word, or the next character of a word that is
wider than the room, would make it too wide.  If all words fit and lines do not get wider when words
are removed from their ends, the words have no division into fewer lines that fit. -/
theorem lines_greedy (hroom : 0 < max) (width : List Char → K) (text : List Char) :
    ∃ groups, lines max width text = groups.flatten ∧
      List.Forall₂ (fun paragraph group ↦ Greedy max width (words (chomp paragraph)) group)
        (text.splitOn '\n') groups := by
  refine ⟨_, lines_eq_flatten max width text, List.forall₂_map_right_iff.mpr ?_⟩
  exact List.forall₂_same.mpr fun p _ ↦ paragraphLines_greedy (Std.not_le.mpr hroom) (chomp p)

/-- Two words that fit, and one that is cut. -/
theorem lines_greedy_long : (0 : ℚ) < 5 ∧
    ∃ groups, lines (5 : ℚ) (fun cs ↦ cs.length) "to be abbreviated".toList = groups.flatten ∧
      List.Forall₂ (fun paragraph group ↦
          Greedy (5 : ℚ) (fun cs ↦ cs.length) (words (chomp paragraph)) group)
        ("to be abbreviated".toList.splitOn '\n') groups := by
  have hroom : @OfNat.ofNat ℚ 0 (Scalar.instOfNat 0) < 5 := by
    rw [Scalar.zero_rat]
    norm_num
  exact ⟨by norm_num, lines_greedy hroom _ _⟩

end Wrap

end PagedReport
