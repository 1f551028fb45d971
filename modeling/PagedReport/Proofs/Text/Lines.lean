import PagedReport.Proofs.Text.Wrapping
import Mathlib.Data.List.Chain
import Mathlib.Data.List.Forall2

/-!
# Words on lines

A line is a row of words with one space between each two.  A word joins the last row if there is
room for it and begins a row if there is not; a word that is wider than a line is cut, and each of
its pieces begins a row.  `Sets` says so of all rows of a paragraph, and that every word stands on
its lines, whole or in pieces, is proved by induction on it.
-/

namespace PagedReport

namespace Wrap

/-! ## Words -/

abbrev Words := List (List Char)

/-- A run of characters without spaces. -/
def IsWord (w : List Char) : Prop := w ≠ [] ∧ ' ' ∉ w

theorem notMem_of_mem_splitOn {sep : Char} {cs p : List Char} (hp : p ∈ List.splitOn sep cs) :
    sep ∉ p := by
  induction cs generalizing p with
  | nil =>
      rw [List.splitOn_nil, List.mem_singleton] at hp
      simp [hp]
  | cons c cs ih =>
      obtain ⟨q, qs, hqs⟩ := List.exists_cons_of_ne_nil (List.splitOn_ne_nil sep cs)
      rw [hqs] at ih
      rw [splitOn_cons, hqs] at hp
      by_cases hc : c = sep
      · rw [if_pos hc] at hp
        rcases List.mem_cons.mp hp with rfl | hp
        · exact List.not_mem_nil
        · exact ih hp
      · rw [if_neg hc, List.modifyHead_cons] at hp
        rcases List.mem_cons.mp hp with rfl | hp
        · simpa [Ne.symm hc] using ih List.mem_cons_self
        · exact ih (List.mem_cons_of_mem q hp)

theorem isWord_of_mem_words {paragraph w : List Char} (hw : w ∈ words paragraph) : IsWord w := by
  obtain ⟨hsplit, hne⟩ := List.mem_filter.mp hw
  exact ⟨by simpa using hne, notMem_of_mem_splitOn hsplit⟩

theorem unspaced_eq_self {cs : List Char} (h : ' ' ∉ cs) : unspaced cs = cs :=
  List.filter_eq_self.mpr fun c hc ↦ by simpa using fun heq : c = ' ' ↦ h (heq ▸ hc)

/-! ## Rows of words -/

/-- The text of a row: one space between each two words. -/
def spaced (row : Words) : List Char := [' '].intercalate row

@[simp] theorem spaced_nil : spaced [] = [] := List.intercalate_nil

@[simp] theorem spaced_singleton (w : List Char) : spaced [w] = w := List.intercalate_singleton

theorem spaced_cons_cons (v w : List Char) (row : Words) :
    spaced (v :: w :: row) = v ++ ' ' :: spaced (w :: row) := by
  simp [spaced, List.intercalate_cons_cons]

theorem spaced_concat {row : Words} (hrow : row ≠ []) (w : List Char) :
    spaced (row ++ [w]) = spaced row ++ ' ' :: w := by
  induction row with
  | nil => exact absurd rfl hrow
  | cons v row ih =>
      cases row with
      | nil => simp [spaced_cons_cons]
      | cons u row =>
          have hrest := ih (List.cons_ne_nil u row)
          rw [List.cons_append] at hrest
          rw [List.cons_append, List.cons_append, spaced_cons_cons, hrest, spaced_cons_cons,
            List.append_assoc, List.cons_append]

/-- Words that each stand in a row of their own. -/
theorem flatten_singletons (row : Words) : (row.map fun w ↦ [w]).flatten = row := by
  rw [← List.flatMap_def, List.flatMap_singleton']

theorem unspaced_spaced {row : Words} (hrow : ∀ piece ∈ row, IsWord piece) :
    unspaced (spaced row) = row.flatten := by
  induction row with
  | nil => rfl
  | cons v row ih =>
      obtain ⟨hv, hrest⟩ := List.forall_mem_cons.mp hrow
      cases row with
      | nil => simp [unspaced_eq_self hv.2]
      | cons w row =>
          rw [spaced_cons_cons, unspaced_append, unspaced_space, ih hrest, unspaced_eq_self hv.2]
          rfl

theorem head?_spaced {v : List Char} (hv : v ≠ []) (row : Words) :
    (spaced (v :: row)).head? = v.head? := by
  cases row with
  | nil => rw [spaced_singleton]
  | cons w row => rw [spaced_cons_cons, List.head?_append_of_ne_nil _ hv]

theorem getLast?_spaced {v : List Char} (hv : v ≠ []) (row : Words) :
    (spaced (row ++ [v])).getLast? = v.getLast? := by
  by_cases hrow : row = []
  · rw [hrow, List.nil_append, spaced_singleton]
  · obtain ⟨c, cs, rfl⟩ := List.exists_cons_of_ne_nil hv
    rw [spaced_concat hrow, List.getLast?_append, List.getLast?_cons_cons]
    simp [List.getLast?_cons]

/-- A row of words neither starts nor ends with a space, and has text if it has words. -/
theorem spaced_ends {row : Words} (hrow : ∀ piece ∈ row, IsWord piece) :
    (spaced row).head? ≠ some ' ' ∧ (spaced row).getLast? ≠ some ' ' ∧
      (spaced row = [] → row = []) := by
  cases row with
  | nil => simp
  | cons v row =>
      obtain ⟨hv, hrest⟩ := List.forall_mem_cons.mp hrow
      have hhead := head?_spaced hv.1 row
      refine ⟨fun h ↦ hv.2 (List.mem_of_mem_head? (hhead.symm.trans h)), fun h ↦ ?_, fun h ↦ ?_⟩
      · obtain ⟨first, last, heq⟩ := (v :: row).eq_nil_or_concat'.resolve_left nofun
        rw [heq] at h hrow
        have hlast := hrow last List.mem_concat_self
        exact hlast.2 (List.mem_of_getLast? ((getLast?_spaced hlast.1 first).symm.trans h))
      · rw [h] at hhead
        exact absurd (List.head?_eq_none_iff.mp hhead.symm) hv.1

/-- The words of a row are read back from its text. -/
theorem words_spaced {row : Words} (hrow : ∀ piece ∈ row, IsWord piece) :
    words (spaced row) = row := by
  by_cases hnone : row = []
  · rw [hnone]
    rfl
  · have hspaces : ∀ piece ∈ row, ' ' ∉ piece := fun piece hpiece ↦ (hrow piece hpiece).2
    rw [words, spaced, List.splitOn_intercalate _ hspaces hnone]
    exact List.filter_eq_self.mpr fun piece hpiece ↦ by simpa using (hrow piece hpiece).1

/-! ## Cutting a word -/

section

variable {K : Type} [Scalar K] (max : K) (width : List Char → K)

/-- A word in pieces, each of which is as long as a line has room for. -/
structure IsCut (word : List Char) (pieces : Words) : Prop where
  flatten : pieces.flatten = word
  nonempty : [] ∉ pieces
  fits : ∀ piece ∈ pieces, ¬ max < width piece ∨ piece.length = 1
  full : pieces.IsChain fun piece next ↦ ∃ c ∈ next.head?, max < width (piece ++ [c])

variable {max width}

theorem head?_of_mem_head? {pieces : Words} (hpieces : [] ∉ pieces) {piece : List Char}
    (hpiece : piece ∈ pieces.head?) : piece.head? = pieces.flatten.head? := by
  cases pieces with
  | nil => cases hpiece
  | cons first rest =>
      obtain rfl := Option.mem_some_iff.mp hpiece
      have hne : first ≠ [] := fun heq ↦ hpieces (heq ▸ List.mem_cons_self)
      rw [List.flatten_cons, List.head?_append_of_ne_nil _ hne]

theorem cut_isCut {current : List Char} (hcurrent : current ≠ [])
    (hfits : ¬ max < width current ∨ current.length = 1) (word : List Char) :
    IsCut max width (current ++ word)
      ((cut max width current word).1 ++ [(cut max width current word).2]) := by
  induction word generalizing current with
  | nil =>
      simp only [cut, List.nil_append, List.append_nil]
      exact ⟨by simp, by simpa using hcurrent.symm, by simpa using hfits, .singleton _⟩
  | cons c word ih =>
      rw [cut]
      split
      · next hfull =>
          -- the pieces behind `current` begin with the character that did not fit
          obtain ⟨hflatten, hnonempty, hrest, hchain⟩ := ih (List.cons_ne_nil c []) (.inr rfl)
          dsimp only
          rw [List.cons_append]
          refine ⟨by rw [List.flatten_cons, hflatten]; simp, ?_, ?_, ?_⟩
          · simpa [hcurrent] using hnonempty
          · exact List.forall_mem_cons.mpr ⟨hfits, hrest⟩
          · refine hchain.cons fun next hnext ↦ ⟨c, ?_, hfull.1⟩
            rw [head?_of_mem_head? hnonempty hnext, hflatten]
            rfl
      · next hroom =>
          have hnext := ih (List.append_ne_nil_of_left_ne_nil hcurrent [c])
            (.inl fun h ↦ hroom ⟨h, hcurrent⟩)
          rwa [List.append_assoc] at hnext

theorem isCut_of_ne_nil {word : List Char} (hword : word ≠ []) :
    IsCut max width word ((cut max width [] word).1 ++ [(cut max width [] word).2]) := by
  obtain ⟨c, cs, rfl⟩ := List.exists_cons_of_ne_nil hword
  have hfirst : cut max width [] (c :: cs) = cut max width [c] cs := by simp [cut]
  rw [hfirst]
  exact cut_isCut (List.cons_ne_nil c []) (.inr rfl) cs

theorem IsCut.isWord {word : List Char} {pieces : Words} (h : IsCut max width word pieces)
    (hword : IsWord word) : ∀ piece ∈ pieces, IsWord piece := by
  intro piece hpiece
  refine ⟨fun heq ↦ h.nonempty (heq ▸ hpiece), fun hspace ↦ hword.2 ?_⟩
  rw [← h.flatten]
  exact List.mem_flatten.mpr ⟨piece, hpiece, hspace⟩

/-! ## Setting words -/

variable (max width)

/-- The last row has no room for a word more. -/
def NoRoom (rows : List Words) (w : List Char) : Prop :=
  ∀ row ∈ rows.getLast?, ¬ width (spaced (row ++ [w])) ≤ max

/-- Words and the rows they are set in, one word after the other. -/
inductive Sets : Words → List Words → Prop
  | none : Sets [] []
  | joins {ws : Words} {rows : List Words} {row : Words} {w : List Char} :
      Sets ws (rows ++ [row]) → width (spaced (row ++ [w])) ≤ max →
      Sets (ws ++ [w]) (rows ++ [row ++ [w]])
  | begins {ws : Words} {rows : List Words} {w : List Char} :
      Sets ws rows → NoRoom max width rows w → width w ≤ max → Sets (ws ++ [w]) (rows ++ [[w]])
  | cut {ws : Words} {rows : List Words} {w : List Char} {pieces : Words} :
      Sets ws rows → NoRoom max width rows w → ¬ width w ≤ max → IsCut max width w pieces →
      Sets (ws ++ [w]) (rows ++ pieces.map fun piece ↦ [piece])

/-- The texts of rows; a paragraph without words has a line without text. -/
def shown (rows : List Words) : List (List Char) := (if rows = [] then [[]] else rows).map spaced

variable {max width}

theorem shown_concat (rows : List Words) (row : Words) :
    shown (rows ++ [row]) = rows.map spaced ++ [spaced row] := by
  simp [shown]

namespace Sets

variable {ws : Words} {rows : List Words}

/-- All that stands in a row is a word or a piece of one. -/
theorem isWord (h : Sets max width ws rows) (hws : ∀ w ∈ ws, IsWord w) :
    ∀ row ∈ rows, row ≠ [] ∧ ∀ piece ∈ row, IsWord piece := by
  induction h with
  | none => exact nofun
  | @joins ws rows row w _ _ ih =>
      obtain ⟨hws, hw⟩ := List.forall_mem_append.mp hws
      obtain ⟨hrows, hrow⟩ := List.forall_mem_append.mp (ih hws)
      refine List.forall_mem_append.mpr ⟨hrows, List.forall_mem_singleton.mpr ⟨by simp, ?_⟩⟩
      exact List.forall_mem_append.mpr ⟨(List.forall_mem_singleton.mp hrow).2, hw⟩
  | begins _ _ _ ih =>
      obtain ⟨hws, hw⟩ := List.forall_mem_append.mp hws
      exact List.forall_mem_append.mpr ⟨ih hws, List.forall_mem_singleton.mpr ⟨by simp, hw⟩⟩
  | cut _ _ _ hcut ih =>
      obtain ⟨hws, hw⟩ := List.forall_mem_append.mp hws
      refine List.forall_mem_append.mpr ⟨ih hws, fun row hrow ↦ ?_⟩
      obtain ⟨piece, hpiece, rfl⟩ := List.mem_map.mp hrow
      have hpiece := hcut.isWord (List.forall_mem_singleton.mp hw) piece hpiece
      exact ⟨by simp, List.forall_mem_singleton.mpr hpiece⟩

theorem content (h : Sets max width ws rows) : rows.flatten.flatten = ws.flatten := by
  induction h with
  | none => rfl
  | joins _ _ ih => simpa [← List.append_assoc] using ih
  | begins _ _ _ ih => simp [ih]
  | cut _ _ _ hcut ih => simp [ih, flatten_singletons, hcut.flatten]

theorem eq_nil (h : Sets max width ws []) (hws : ∀ w ∈ ws, IsWord w) : ws = [] :=
  List.eq_nil_iff_forall_not_mem.mpr fun w hw ↦
    (hws w hw).1 (List.flatten_eq_nil_iff.mp h.content.symm w hw)

/-- A word that is added to the last line is set in the last row or in rows of its own. -/
theorem addWord (h : Sets max width ws rows) (hws : ∀ w ∈ ws, IsWord w)
    {done : List (List Char)} {current : List Char} (hshown : shown rows = done ++ [current])
    {w : List Char} (hw : IsWord w) :
    ∃ rows', Sets max width (ws ++ [w]) rows' ∧ shown rows' =
      done ++ (addWord max width current w).1 ++ [(addWord max width current w).2] := by
  have hcut : IsCut max width w _ := isCut_of_ne_nil hw.1
  have hpieces {rows : List Words} {q : List Char} {qs : List (List Char)} :
      shown (rows ++ (qs ++ [q]).map fun piece ↦ [piece]) = rows.map spaced ++ qs ++ [q] := by
    simp [shown, Function.comp_def]
  rcases rows.eq_nil_or_concat' with rfl | ⟨above, row, rfl⟩
  · have hempty : [] ++ [[]] = done ++ [current] := hshown
    obtain ⟨rfl, heq⟩ := List.append_inj' hempty rfl
    obtain rfl := List.singleton_inj.mp heq
    by_cases hfits : width w ≤ max
    · exact ⟨_, h.begins nofun hfits, by simp [shown, Wrap.addWord, hfits]⟩
    · refine ⟨_, h.cut nofun hfits hcut, ?_⟩
      rw [hpieces]
      simp [Wrap.addWord, hfits]
  · rw [shown_concat] at hshown
    obtain ⟨rfl, heq⟩ := List.append_inj' hshown rfl
    obtain rfl := List.singleton_inj.mp heq
    obtain ⟨hrow, hwords⟩ := h.isWord hws row List.mem_concat_self
    have hsome : (spaced row).isEmpty = false := by
      simpa using fun hnone ↦ hrow ((spaced_ends hwords).2.2 hnone)
    by_cases hjoins : width (spaced (row ++ [w])) ≤ max
    · refine ⟨_, h.joins hjoins, ?_⟩
      rw [shown_concat]
      rw [spaced_concat hrow] at hjoins ⊢
      simp [Wrap.addWord, hsome, hjoins]
    · have hfull : NoRoom max width (above ++ [row]) w := by
        simpa [NoRoom] using hjoins
      rw [spaced_concat hrow] at hjoins
      by_cases hfits : width w ≤ max
      · refine ⟨_, h.begins hfull hfits, ?_⟩
        rw [shown_concat]
        simp [Wrap.addWord, hsome, hjoins, hfits]
      · refine ⟨_, h.cut hfull hfits hcut, ?_⟩
        rw [hpieces]
        simp [Wrap.addWord, hsome, hjoins, hfits]

/-- Lines are filled as words are set. -/
theorem fill (h : Sets max width ws rows) {done : List (List Char)} {current : List Char}
    (hshown : shown rows = done ++ [current]) {ws' : Words} (hws : ∀ w ∈ ws ++ ws', IsWord w) :
    ∃ rows', Sets max width (ws ++ ws') rows' ∧ shown rows' =
      done ++ (fill max width current ws').1 ++ [(fill max width current ws').2] := by
  induction ws' generalizing ws rows done current with
  | nil => exact ⟨rows, by rwa [List.append_nil], by simpa [Wrap.fill] using hshown⟩
  | cons w ws' ih =>
      obtain ⟨hbefore, hw⟩ := List.forall_mem_append.mp hws
      obtain ⟨hw, -⟩ := List.forall_mem_cons.mp hw
      obtain ⟨rows', hrows', hshown'⟩ := h.addWord hbefore hshown hw
      rw [← List.singleton_append, ← List.append_assoc] at hws ⊢
      obtain ⟨rows'', hrows'', hshown''⟩ := ih hrows' hshown' hws
      exact ⟨rows'', hrows'', by simpa [Wrap.fill] using hshown''⟩

end Sets

variable (width) in
/-- The lines of a paragraph are the rows its words are set in. -/
theorem paragraphLines_sets (hroom : ¬ max ≤ 0) (paragraph : List Char) :
    ∃ rows soft last, Sets max width (words paragraph) rows ∧ shown rows = soft ++ [last] ∧
      paragraphLines max width paragraph = soft.map (⟨·, false⟩) ++ [⟨last, true⟩] := by
  have hnone : Sets max width [] [] := .none
  have hempty : shown [] = [] ++ [[]] := rfl
  have hws : ∀ w ∈ [] ++ words paragraph, IsWord w := fun _ hw ↦ isWord_of_mem_words hw
  obtain ⟨rows, hrows, hshown⟩ := hnone.fill hempty hws
  exact ⟨rows, _, _, hrows, hshown, by simp [paragraphLines, hroom]⟩

/-- A line that does not end its paragraph is a row of words. -/
theorem exists_row_of_soft {paragraph : List Char} {line : WrappedLine}
    (hline : line ∈ paragraphLines max width paragraph) (hsoft : line.hardBreak = false) :
    ∃ rows, Sets max width (words paragraph) rows ∧ ∃ row ∈ rows, line.text = spaced row := by
  by_cases hroom : max ≤ 0
  · rw [paragraphLines, if_pos hroom] at hline
    obtain rfl := List.mem_singleton.mp hline
    cases hsoft
  · obtain ⟨rows, soft, last, hrows, hshown, hlines⟩ := paragraphLines_sets width hroom paragraph
    rw [hlines] at hline
    rcases List.mem_append.mp hline with hline | hline
    · obtain ⟨text, htext, rfl⟩ := List.mem_map.mp hline
      -- without rows there is only the last line
      have hne : rows ≠ [] := by
        rintro rfl
        have hempty : [] ++ [[]] = soft ++ [last] := hshown
        rw [← (List.append_inj' hempty rfl).1] at htext
        cases htext
      have hmem : text ∈ rows.map spaced := by
        rw [shown, if_neg hne] at hshown
        exact hshown ▸ List.mem_append_left _ htext
      obtain ⟨row, hrow, rfl⟩ := List.mem_map.mp hmem
      exact ⟨rows, hrows, row, hrow, rfl⟩
    · obtain rfl := List.mem_singleton.mp hline
      cases hsoft

/-- A line that does not end its paragraph has a word. -/
theorem unspaced_of_soft {paragraph : List Char} {line : WrappedLine}
    (hline : line ∈ paragraphLines max width paragraph) (hsoft : line.hardBreak = false) :
    unspaced line.text ≠ [] := by
  obtain ⟨rows, hrows, row, hrow, htext⟩ := exists_row_of_soft hline hsoft
  obtain ⟨hne, hwords⟩ := hrows.isWord (fun _ ↦ isWord_of_mem_words) row hrow
  obtain ⟨w, ws, rfl⟩ := List.exists_cons_of_ne_nil hne
  rw [htext, unspaced_spaced hwords, List.flatten_cons]
  exact List.append_ne_nil_of_left_ne_nil (hwords w List.mem_cons_self).1 _

/-! ## Where words stand -/

variable (max width) in
/-- A word behind the characters `before` stands whole on a line or, if it is wider than a line, in
pieces that each begin a line; but for the last of them they are all there is on it. -/
inductive Stands (rows : List Words) (before w : List Char) : Prop
  | whole {above below : List Words} {left right : Words} :
      rows = above ++ (left ++ w :: right) :: below → (above.flatten ++ left).flatten = before →
      Stands rows before w
  | inPieces {above below : List Words} {pieces right : Words} {last : List Char} :
      ¬ width w ≤ max → pieces ≠ [] → pieces.flatten ++ last = w →
      rows = above ++ (pieces.map fun piece ↦ [piece]) ++ (last :: right) :: below →
      above.flatten.flatten = before → Stands rows before w

/-- A place in a list that is one longer is its end or a place in the list. -/
theorem concat_eq_append_cons {α : Type} {as before after : List α} {a b : α}
    (h : as ++ [a] = before ++ b :: after) :
    (before = as ∧ b = a ∧ after = []) ∨
      ∃ after', as = before ++ b :: after' ∧ after = after' ++ [a] := by
  rcases after.eq_nil_or_concat' with rfl | ⟨after', c, rfl⟩
  · obtain ⟨rfl, heq⟩ := List.append_inj' h rfl
    exact .inl ⟨rfl, (List.singleton_inj.mp heq).symm, rfl⟩
  · rw [← List.cons_append, ← List.append_assoc] at h
    obtain ⟨rfl, heq⟩ := List.append_inj' h rfl
    exact .inr ⟨after', rfl, by rw [List.singleton_inj.mp heq]⟩

namespace Stands

variable {rows : List Words} {before w : List Char}

theorem first {above below : List Words} {right : Words}
    (hbefore : above.flatten.flatten = before) :
    Stands max width (above ++ (w :: right) :: below) before w := by
  have hrow : above ++ (w :: right) :: below = above ++ ([] ++ w :: right) :: below := rfl
  exact .whole hrow (by rwa [List.append_nil])

theorem append (h : Stands max width rows before w) (more : List Words) :
    Stands max width (rows ++ more) before w := by
  cases h with
  | whole hrows hbefore =>
      rw [hrows, List.append_assoc, List.cons_append]
      exact .whole rfl hbefore
  | inPieces hwide hpieces hw hrows hbefore =>
      rw [hrows, List.append_assoc, List.cons_append]
      exact .inPieces hwide hpieces hw rfl hbefore

/-- What stands in rows stands in them also if the last one goes on. -/
theorem join {row : Words} (h : Stands max width (rows ++ [row]) before w) (v : List Char) :
    Stands max width (rows ++ [row ++ [v]]) before w := by
  cases h with
  | whole hrows hbefore =>
      rcases concat_eq_append_cons hrows with ⟨rfl, rfl, -⟩ | ⟨below, rfl, -⟩
      · rw [List.append_assoc, List.cons_append]
        exact .whole rfl hbefore
      · rw [List.append_assoc, List.cons_append]
        exact .whole rfl hbefore
  | inPieces hwide hpieces hw hrows hbefore =>
      rcases concat_eq_append_cons hrows with ⟨rfl, rfl, -⟩ | ⟨below, rfl, -⟩
      · exact .inPieces hwide hpieces hw rfl hbefore
      · rw [List.append_assoc, List.cons_append]
        exact .inPieces hwide hpieces hw rfl hbefore

end Stands

theorem Sets.stands {ws : Words} {rows : List Words} (h : Sets max width ws rows)
    (hws : ∀ w ∈ ws, IsWord w) {before after : Words} {w : List Char}
    (hw : ws = before ++ w :: after) : Stands max width rows before.flatten w := by
  induction h generalizing after with
  | none => simp at hw
  | joins hrows _ ih =>
      rcases concat_eq_append_cons hw with ⟨rfl, rfl, -⟩ | ⟨after, rfl, -⟩
      · refine .whole rfl ?_
        rw [← hrows.content]
        simp
      · exact (ih (List.forall_mem_append.mp hws).1 rfl).join _
  | begins hrows _ _ ih =>
      rcases concat_eq_append_cons hw with ⟨rfl, rfl, -⟩ | ⟨after, rfl, -⟩
      · exact .first hrows.content
      · exact (ih (List.forall_mem_append.mp hws).1 rfl).append _
  | @cut _ _ _ pieces hrows _ hwide hcut ih =>
      rcases concat_eq_append_cons hw with ⟨rfl, rfl, -⟩ | ⟨after, rfl, -⟩
      · have hflatten := hcut.flatten
        rcases List.eq_nil_or_concat' pieces with rfl | ⟨pieces, last, rfl⟩
        · exact absurd hflatten.symm (hws w List.mem_concat_self).1
        · rw [List.flatten_append, List.flatten_singleton] at hflatten
          rw [List.map_append, ← List.append_assoc]
          by_cases hone : pieces = []
          · obtain rfl : last = w := by simpa [hone] using hflatten
            rw [hone]
            refine .first ?_
            rw [← hrows.content]
            simp
          · exact .inPieces hwide hone hflatten rfl hrows.content
      · exact (ih (List.forall_mem_append.mp hws).1 rfl).append _

/-! ## Paragraphs -/

variable (max width) in
/-- Rows in which words stand in their order, and nothing else does. -/
structure HoldWords (ws : Words) (rows : List Words) : Prop where
  content : rows.flatten.flatten = ws.flatten
  isWord : ∀ row ∈ rows, ∀ piece ∈ row, IsWord piece
  nonempty : [] ∈ rows → ws = []
  stands : ∀ before w after, ws = before ++ w :: after → Stands max width rows before.flatten w

theorem Sets.holdWords {ws : Words} {rows : List Words} (h : Sets max width ws rows)
    (hws : ∀ w ∈ ws, IsWord w) :
    HoldWords max width ws (if rows = [] then [[]] else rows) := by
  split
  · next hnone =>
      subst hnone
      rw [h.eq_nil hws]
      exact ⟨rfl, by simp, fun _ ↦ rfl, by simp⟩
  · exact ⟨h.content, fun row hrow ↦ (h.isWord hws row hrow).2,
      fun hnone ↦ absurd rfl (h.isWord hws [] hnone).1, fun _ _ _ ↦ h.stands hws⟩

variable (max width) in
/-- The lines of a paragraph: the last of them ends it, and the words of the paragraph stand on them
in their order.  Without room the paragraph is a line as it is. -/
structure SetsOut (paragraph : List Char) (group : List WrappedLine) : Prop where
  ends : ∃ (soft : List (List Char)) (last : List Char),
    group = soft.map (⟨·, false⟩) ++ [⟨last, true⟩]
  narrow : max ≤ 0 → group = [⟨paragraph, true⟩]
  rows : ¬ max ≤ 0 →
    ∃ rows, group.map (·.text) = rows.map spaced ∧ HoldWords max width (words paragraph) rows
  spaces : ¬ max ≤ 0 → ∀ line ∈ group, line.text.head? ≠ some ' ' ∧
    line.text.getLast? ≠ some ' ' ∧ (line.text = [] → words paragraph = [])

theorem HoldWords.spaces {ws : Words} {rows : List Words} (h : HoldWords max width ws rows) :
    ∀ text ∈ rows.map spaced, text.head? ≠ some ' ' ∧ text.getLast? ≠ some ' ' ∧
      (text = [] → ws = []) := by
  intro text htext
  obtain ⟨row, hrow, rfl⟩ := List.mem_map.mp htext
  obtain ⟨hhead, hlast, hempty⟩ := spaced_ends (h.isWord row hrow)
  exact ⟨hhead, hlast, fun hnone ↦ h.nonempty (hempty hnone ▸ hrow)⟩

variable (max width) in
theorem paragraphLines_setsOut (paragraph : List Char) :
    SetsOut max width paragraph (paragraphLines max width paragraph) := by
  by_cases hroom : max ≤ 0
  · have hline : paragraphLines max width paragraph = [⟨paragraph, true⟩] := by
      simp [paragraphLines, hroom]
    exact ⟨⟨[], paragraph, hline⟩, fun _ ↦ hline, absurd hroom, absurd hroom⟩
  · obtain ⟨rows, soft, last, hrows, hshown, hlines⟩ :=
      paragraphLines_sets width hroom paragraph
    have hholds := hrows.holdWords fun w ↦ isWord_of_mem_words
    have htexts : (paragraphLines max width paragraph).map (·.text) = shown rows := by
      rw [hshown, hlines]
      simp [Function.comp_def]
    refine ⟨⟨soft, last, hlines⟩, fun h ↦ absurd h hroom, fun _ ↦ ⟨_, htexts, hholds⟩,
      fun _ line hline ↦ hholds.spaces line.text ?_⟩
    have htext : line.text ∈ shown rows := htexts ▸ List.mem_map_of_mem hline
    exact htext

/-- The lines of a text are those of the paragraphs between its newlines. -/
theorem lines_eq_flatten (max : K) (width : List Char → K) (text : List Char) :
    lines max width text =
      ((text.splitOn '\n').map fun p ↦ paragraphLines max width (chomp p)).flatten := by
  rw [← List.flatMap_def]
  exact List.flatMap_map ..

/-- Whatever the room and the widths, the lines of a text are groups of lines, one for each of the
paragraphs between its newlines, and there is a line in any case.  The last line of a group, and no
other, ends the paragraph.  If there is no room, the paragraph is one line, without a carriage
return at its end.  If there is, every word of it stands whole on a line or, if it is wider than a
line, in pieces in order, each at the start of a line and all but the last alone on theirs; words on
one line have one space between them, no line has a space at an end, and only a paragraph without
words has an empty line. -/
theorem lines_keep_words (max : K) (width : List Char → K) (text : List Char) :
    lines max width text ≠ [] ∧ ∃ groups, lines max width text = groups.flatten ∧
      List.Forall₂ (fun paragraph group ↦ SetsOut max width (chomp paragraph) group)
        (text.splitOn '\n') groups := by
  refine ⟨?_, _, lines_eq_flatten max width text, ?_⟩
  · obtain ⟨p, ps, hps⟩ := List.exists_cons_of_ne_nil (List.splitOn_ne_nil '\n' text)
    obtain ⟨soft, last, hlast⟩ := (paragraphLines_setsOut max width (chomp p)).ends
    rw [lines_eq_flatten, hps, List.map_cons, List.flatten_cons, hlast]
    simp
  · exact List.forall₂_map_right_iff.mpr
      (List.forall₂_same.mpr fun p _ ↦ paragraphLines_setsOut max width (chomp p))

end

end Wrap

end PagedReport
