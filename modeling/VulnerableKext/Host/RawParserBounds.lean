import VulnerableKext.Host.RawParser
import VulnerableKext.Host.SymbolsFileCorrect

/-!
# The helpers stay in the file

From every state with the cursor in the file, or one past its end, each helper of the text
parser comes to its end, has read bytes of the file only and has kept the cursor there.
With it comes what it computes: the same as the helper on the list of the file's bytes.
-/

namespace VulnerableKext.Host.Raw

open Memory Total TextParser

/-! ## The file -/

section File

variable (m : Mem) (start n : ℕ)

/-- The bytes of the file. -/
def fileBytes : List UInt8 := (List.range n).map fun i => m (start + i)

/-- The parser on the bytes of the file, with its cursor at the pointer `p`. -/
def view (p : ℕ) : TextParser := ⟨fileBytes m start n, p - start⟩

/-- The cursor is in the file or one past its end, where it has always been, and nothing but
bytes of the file was read. -/
structure Inside (tp : RawParser) : Prop where
  e_eq : tp.e = start + n
  start_le : start ≤ tp.p
  p_le : tp.p ≤ start + n + 1
  reads : ∀ a ∈ tp.reads, start ≤ a ∧ a < start + n
  cursors : ∀ q ∈ tp.cursors, start ≤ q ∧ q ≤ start + n + 1

/-- In addition, the state is the one of the parser `t` on the bytes of the file. -/
def At (t : TextParser) (tp : RawParser) : Prop := Inside start n tp ∧ view m start n tp.p = t

end File

section Steps

variable {m : Mem} {start n : ℕ} {tp : RawParser}

lemma length_fileBytes : (fileBytes m start n).length = n := by
  rw [fileBytes, List.length_map, List.length_range]

lemma view_add {p : ℕ} (k : ℕ) (hp : start ≤ p) :
    view m start n (p + k) = (view m start n p).advance k := by
  rw [view, view, advance, Nat.sub_add_comm hp]

lemma cur?_view {p : ℕ} (hp : start ≤ p) :
    (view m start n p).cur? = if p < start + n then some (m p) else none := by
  change (fileBytes m start n)[p - start]? = _
  rw [fileBytes, List.getElem?_map]
  split_ifs with hlt
  · rw [List.getElem?_range (by omega), Option.map_some, Nat.add_sub_cancel' hp]
  · rw [List.getElem?_eq_none (by rw [List.length_range]; omega), Option.map_none]

lemma lt_of_cur?_any {f : UInt8 → Bool} {p : ℕ} (hp : start ≤ p)
    (h : (view m start n p).cur?.any f = true) : p < start + n := by
  rw [cur?_view hp] at h
  split_ifs at h with hlt
  · exact hlt
  · exact absurd h (by simp)

/-- The pointer that the state of the parser stands for. -/
lemma At.p_eq {t : TextParser} (h : At m start n t tp) : tp.p = start + t.p := by
  have hle := h.1.start_le
  have hp : tp.p - start = t.p := congrArg TextParser.p h.2
  omega

lemma Inside.at (h : Inside start n tp) : At m start n (view m start n tp.p) tp := ⟨h, rfl⟩

lemma ends_readByte (h : Inside start n tp) {a : ℕ} (ha : start ≤ a) (hlt : a < start + n) :
    Ends (readByte m a) tp fun b tp' => b = m a ∧ Inside start n tp' ∧ tp'.p = tp.p := by
  refine ⟨_, _, rfl, rfl, ⟨h.e_eq, h.start_le, h.p_le, ?_, h.cursors⟩, rfl⟩
  exact List.forall_mem_cons.2 ⟨⟨ha, hlt⟩, h.reads⟩

lemma ends_setP (h : Inside start n tp) {q : ℕ} (hq : start ≤ q) (hle : q ≤ start + n + 1) :
    Ends (setP q) tp fun _ tp' => Inside start n tp' ∧ tp'.p = q := by
  refine ⟨_, _, rfl, ⟨h.e_eq, hq, hle, h.reads, ?_⟩, rfl⟩
  exact List.forall_mem_cons.2 ⟨⟨hq, hle⟩, h.cursors⟩

/-- The byte under the cursor is read only when the cursor is before the end. -/
lemma ends_curIs (f : UInt8 → Bool) (h : Inside start n tp) :
    Ends (curIs m f) tp fun b tp' =>
      Inside start n tp' ∧ tp'.p = tp.p ∧ b = (view m start n tp.p).cur?.any f := by
  rw [cur?_view h.start_le]
  refine ends_get_bind ?_
  refine Ends.ite (fun hlt => ?_) fun hge => ?_
  · rw [h.e_eq] at hlt
    refine (ends_readByte h h.start_le hlt).bind ?_
    rintro _ tp' ⟨rfl, hin, hp⟩
    rw [if_pos hlt]
    exact ends_pure ⟨hin, hp, rfl⟩
  · rw [h.e_eq] at hge
    rw [if_neg hge]
    exact ends_pure ⟨h, rfl, rfl⟩

/-- The two ways on from a test of the byte under the cursor. -/
lemma ends_ifCurIs {α : Type} {f : UInt8 → Bool} {x y : Parse α} {Q : α → RawParser → Prop}
    (h : Inside start n tp)
    (hx : (view m start n tp.p).cur?.any f = true → tp.p < start + n →
      ∀ tp', Inside start n tp' → tp'.p = tp.p → Ends x tp' Q)
    (hy : (view m start n tp.p).cur?.any f = false →
      ∀ tp', Inside start n tp' → tp'.p = tp.p → Ends y tp' Q) :
    Ends (do if ← curIs m f then x else y) tp Q := by
  refine (ends_curIs f h).bind ?_
  rintro b tp₁ ⟨h₁, hp₁, rfl⟩
  refine Ends.ite (fun htrue => ?_) fun hfalse => ?_
  · exact hx htrue (lt_of_cur?_any h.start_le htrue) tp₁ h₁ hp₁
  · exact hy (Bool.not_eq_true _ ▸ hfalse) tp₁ h₁ hp₁

/-- `tp->p++`, with what is done after it. -/
lemma ends_advance_bind {α : Type} {x : Parse α} {Q : α → RawParser → Prop}
    (h : Inside start n tp) (hp : tp.p ≤ start + n)
    (hx : ∀ tp', Inside start n tp' → tp'.p = tp.p + 1 → Ends x tp' Q) :
    Ends (do let tp ← get; setP (tp.p + 1); x) tp Q := by
  have hle := h.start_le
  refine ends_get_bind ((ends_setP h (by omega) (by omega)).bind ?_)
  rintro _ tp₁ ⟨h₁, hp₁⟩
  exact hx tp₁ h₁ hp₁

lemma ends_tpEnd (h : Inside start n tp) :
    Ends tpEnd tp fun b tp' => tp' = tp ∧ b = Host.tpEnd (view m start n tp.p) := by
  refine ends_get_bind ?_
  refine ends_pure ⟨rfl, ?_⟩
  have hle := h.start_le
  rw [Host.tpEnd, view, length_fileBytes, h.e_eq]
  congr 1
  simp only [eq_iff_iff]
  omega

end Steps

/-! ## Skipping -/

section Skip

variable {m : Mem} {start n : ℕ} {tp : RawParser} {fuel : ℕ}

lemma tpSkip_of_cur {f : UInt8 → Bool} {t : TextParser} (h : t.cur?.any f = true) :
    tpSkip f t = tpSkip f (t.advance 1) := by
  obtain ⟨c, hc, hf⟩ := (Option.any_eq_true _ _).1 h
  rw [tpSkip]
  split
  · next c' hc' =>
    obtain rfl : c = c' := Option.some.inj (hc.symm.trans hc')
    rw [if_pos hf]
  · next hnone => cases hc.symm.trans hnone

lemma tpSkip_of_not_cur {f : UInt8 → Bool} {t : TextParser} (h : t.cur?.any f = false) :
    tpSkip f t = t := by
  rw [tpSkip]
  split
  · next c hc =>
    rw [hc, Option.any_some] at h
    rw [h, if_neg Bool.false_ne_true]
  · rfl

/-- An iteration that does not leave the loop moves the cursor by one byte. -/
lemma ends_skipIteration (f : UInt8 → Bool) (h : Inside start n tp) :
    Ends (skipIteration m f ()) tp fun r tp' =>
      (∀ b, r = .next b → (view m start n tp.p).cur?.any f = true ∧ Inside start n tp' ∧
        tp'.p = tp.p + 1) ∧
      ∀ c, r = .exit c → (view m start n tp.p).cur?.any f = false ∧ Inside start n tp' ∧
        tp'.p = tp.p := by
  refine ends_ifCurIs h (fun hcur hlt tp₁ h₁ hp₁ => ?_) fun hcur tp₁ h₁ hp₁ => ?_
  · refine ends_advance_bind h₁ (by omega) fun tp₂ h₂ hp₂ => ?_
    exact ends_next ⟨hcur, h₂, by omega⟩
  · exact ends_exit ⟨hcur, h₁, hp₁⟩

lemma ends_skip (f : UInt8 → Bool) (h : Inside start n tp) (hfuel : n < fuel) :
    Ends (loop (skipIteration m f) fuel ()) tp fun _ tp' =>
      At m start n (tpSkip f (view m start n tp.p)) tp' := by
  have hle := h.start_le
  refine ends_loop (fun _ s => Inside start n s ∧
    tpSkip f (view m start n s.p) = tpSkip f (view m start n tp.p))
    (fun _ s => start + n - s.p) ?_ ⟨h, rfl⟩ (by omega)
  rintro _ s ⟨hs, heq⟩
  refine (ends_skipIteration f hs).mono ?_
  rintro r s' ⟨hnext, hexit⟩
  constructor
  · rintro b rfl
    obtain ⟨hcur, hs', hp⟩ := hnext b rfl
    have hlt := lt_of_cur?_any hs.start_le hcur
    refine ⟨⟨hs', ?_⟩, by omega⟩
    rw [hp, view_add 1 hs.start_le, ← tpSkip_of_cur hcur, heq]
  · rintro c rfl
    obtain ⟨hcur, hs', hp⟩ := hexit c rfl
    exact ⟨hs', by rw [← heq, tpSkip_of_not_cur hcur, hp]⟩

lemma length_rest_view (p : ℕ) : (view m start n p).rest.length = n - (p - start) := by
  rw [rest, List.length_drop]
  change (fileBytes m start n).length - (p - start) = _
  rw [length_fileBytes]

/-- What is skipped, and the cursor does not go past the end by it. -/
lemma p_tpSkip_view (f : UInt8 → Bool) (p : ℕ) :
    (tpSkip f (view m start n p)).p =
        p - start + ((view m start n p).rest.takeWhile f).length ∧
      ((view m start n p).rest.takeWhile f).length ≤ n - (p - start) := by
  have hle := (List.takeWhile_prefix f (l := (view m start n p).rest)).length_le
  rw [length_rest_view] at hle
  exact ⟨p_tpSkip f _, hle⟩

lemma ends_tpNextLine (h : Inside start n tp) (hp : tp.p ≤ start + n) (hfuel : n < fuel) :
    Ends (tpNextLine m fuel) tp fun _ tp' =>
      At m start n (Host.tpNextLine (view m start n tp.p)) tp' := by
  refine (ends_skip _ h hfuel).bind fun _ tp₁ h₁ => ?_
  refine ends_get_bind ?_
  have hlt : tp₁.p ≤ start + n := by
    obtain ⟨hmoved, hle⟩ := p_tpSkip_view (m := m) (n := n) (· != chr '\n') tp.p
    rw [h₁.p_eq, hmoved]
    omega
  have hstart := h₁.1.start_le
  refine (ends_setP h₁.1 (by omega) (by omega)).mono ?_
  rintro _ tp₂ ⟨h₂, hp₂⟩
  refine ⟨h₂, ?_⟩
  rw [hp₂, view_add 1 hstart, h₁.2]
  rfl

lemma ends_spaceIteration (skipped : Bool) (h : Inside start n tp) :
    Ends (spaceIteration m skipped) tp fun r tp' =>
      (∀ b, r = .next b → (view m start n tp.p).cur?.any isBlank = true ∧ Inside start n tp' ∧
        tp'.p = tp.p + 1 ∧ b = true) ∧
      ∀ c, r = .exit c → (view m start n tp.p).cur?.any isBlank = false ∧ Inside start n tp' ∧
        tp'.p = tp.p ∧ c = skipped := by
  refine ends_ifCurIs h (fun hcur hlt tp₁ h₁ hp₁ => ?_) fun hcur tp₁ h₁ hp₁ => ?_
  · refine ends_advance_bind h₁ (by omega) fun tp₂ h₂ hp₂ => ?_
    exact ends_next ⟨hcur, h₂, by omega, rfl⟩
  · exact ends_exit ⟨hcur, h₁, hp₁, rfl⟩

/-- The result says whether the first iteration skipped a byte. -/
lemma ends_tpSpace (h : Inside start n tp) (hfuel : n < fuel) :
    Ends (tpSpace m fuel) tp fun b tp' =>
      b = (Host.tpSpace (view m start n tp.p)).1 ∧
        At m start n (Host.tpSpace (view m start n tp.p)).2 tp' := by
  have hle := h.start_le
  change Ends (loop (spaceIteration m) fuel false) tp fun b tp' =>
    b = (false || (view m start n tp.p).cur?.any isBlank) ∧
      At m start n (tpSkip isBlank (view m start n tp.p)) tp'
  refine ends_loop (fun skipped s => Inside start n s ∧
    tpSkip isBlank (view m start n s.p) = tpSkip isBlank (view m start n tp.p) ∧
    (skipped || (view m start n s.p).cur?.any isBlank) =
      (false || (view m start n tp.p).cur?.any isBlank))
    (fun _ s => start + n - s.p) ?_ ⟨h, rfl, rfl⟩ (by omega)
  rintro skipped s ⟨hs, heq, hskipped⟩
  refine (ends_spaceIteration skipped hs).mono ?_
  rintro r s' ⟨hnext, hexit⟩
  constructor
  · rintro b rfl
    obtain ⟨hcur, hs', hp, rfl⟩ := hnext b rfl
    have hlt := lt_of_cur?_any hs.start_le hcur
    refine ⟨⟨hs', ?_, ?_⟩, by omega⟩
    · rw [hp, view_add 1 hs.start_le, ← tpSkip_of_cur hcur, heq]
    · rw [← hskipped, hcur, Bool.true_or, Bool.or_true]
  · rintro c rfl
    obtain ⟨hcur, hs', hp, rfl⟩ := hexit c rfl
    refine ⟨by rw [← hskipped, hcur, Bool.or_false], hs', ?_⟩
    rw [← heq, tpSkip_of_not_cur hcur, hp]

lemma ends_tpLineComment (h : Inside start n tp) (hfuel : n < fuel) :
    Ends (tpLineComment m fuel) tp fun _ tp' =>
      At m start n (Host.tpLineComment (view m start n tp.p)) tp' := by
  have hiff : (view m start n tp.p).cur?.any (· == chr '#') = true ↔
      (view m start n tp.p).cur? = some (chr '#') := by
    rw [Option.any_eq_true]
    constructor
    · rintro ⟨c, hc, hbeq⟩
      rw [hc, beq_iff_eq.1 hbeq]
    · intro hc
      exact ⟨_, hc, by rw [beq_self_eq_true]⟩
  rw [Host.tpLineComment]
  refine ends_ifCurIs h (fun hcur _ tp₁ h₁ hp₁ => ?_) fun hcur tp₁ h₁ hp₁ => ?_
  · rw [if_pos (hiff.1 hcur), ← hp₁]
    exact ends_skip _ h₁ hfuel
  · rw [if_neg (fun hc => Bool.eq_false_iff.1 hcur (hiff.2 hc)), ← hp₁]
    exact ends_pure h₁.at

end Skip

/-! ## Skipping lines -/

section Lines

variable {m : Mem} {start n : ℕ} {tp : RawParser} {fuel : ℕ}

lemma tpSkipLines_of_cur {f : UInt8 → Bool} {t : TextParser} (h : t.cur?.any f = true) :
    tpSkipLines f t = tpSkipLines f (Host.tpNextLine t) := by
  obtain ⟨c, hc, hf⟩ := (Option.any_eq_true _ _).1 h
  rw [tpSkipLines]
  split
  · next c' hc' =>
    obtain rfl : c = c' := Option.some.inj (hc.symm.trans hc')
    rw [if_pos hf]
  · next hnone => cases hc.symm.trans hnone

lemma tpSkipLines_of_not_cur {f : UInt8 → Bool} {t : TextParser} (h : t.cur?.any f = false) :
    tpSkipLines f t = t := by
  rw [tpSkipLines]
  split
  · next c hc =>
    rw [hc, Option.any_some] at h
    rw [h, if_neg Bool.false_ne_true]
  · rfl

/-- The pointers of two states, by the cursors of the parsers that they stand for. -/
lemma At.lt_of_lt {t : TextParser} {tp' : RawParser} (h : Inside start n tp)
    (h' : At m start n t tp') (hlt : (view m start n tp.p).p < t.p) : tp.p < tp'.p := by
  have hp := h.at (m := m).p_eq
  have hp' := h'.p_eq
  omega

lemma ends_linesIteration (f : UInt8 → Bool) (h : Inside start n tp) (hfuel : n < fuel) :
    Ends (linesIteration m fuel f ()) tp fun r tp' =>
      (∀ b, r = .next b → (view m start n tp.p).cur?.any f = true ∧
        At m start n (Host.tpNextLine (view m start n tp.p)) tp') ∧
      ∀ c, r = .exit c → (view m start n tp.p).cur?.any f = false ∧
        At m start n (view m start n tp.p) tp' := by
  refine ends_ifCurIs h (fun hcur hlt tp₁ h₁ hp₁ => ?_) fun hcur tp₁ h₁ hp₁ => ?_
  · refine (ends_tpNextLine h₁ (by omega) hfuel).bind ?_
    intro _ tp₂ h₂
    rw [hp₁] at h₂
    exact ends_next ⟨hcur, h₂⟩
  · exact ends_exit ⟨hcur, h₁, by rw [hp₁]⟩

lemma ends_lines (f : UInt8 → Bool) (h : Inside start n tp) (hfuel : n + 1 < fuel) :
    Ends (loop (linesIteration m fuel f) fuel ()) tp fun _ tp' =>
      At m start n (tpSkipLines f (view m start n tp.p)) tp' := by
  have hle := h.start_le
  refine ends_loop (fun _ s => Inside start n s ∧
    tpSkipLines f (view m start n s.p) = tpSkipLines f (view m start n tp.p))
    (fun _ s => start + n + 1 - s.p) ?_ ⟨h, rfl⟩ (by omega)
  rintro _ s ⟨hs, heq⟩
  refine (ends_linesIteration f hs (by omega)).mono ?_
  rintro r s' ⟨hnext, hexit⟩
  constructor
  · rintro b rfl
    obtain ⟨hcur, hs'⟩ := hnext b rfl
    have hlt := lt_of_cur?_any hs.start_le hcur
    have hmove := At.lt_of_lt hs hs' (lt_p_tpNextLine _)
    refine ⟨⟨hs'.1, ?_⟩, by omega⟩
    rw [hs'.2, ← tpSkipLines_of_cur hcur, heq]
  · rintro c rfl
    obtain ⟨hcur, hs'⟩ := hexit c rfl
    exact ⟨hs'.1, by rw [hs'.2, ← heq, tpSkipLines_of_not_cur hcur]⟩

lemma ends_tpComments (h : Inside start n tp) (hfuel : n + 1 < fuel) :
    Ends (tpComments m fuel) tp fun _ tp' =>
      At m start n (Host.tpComments (view m start n tp.p)) tp' := ends_lines _ h hfuel

lemma ends_tpCommentsOrEmpty (h : Inside start n tp) (hfuel : n + 1 < fuel) :
    Ends (tpCommentsOrEmpty m fuel) tp fun _ tp' =>
      At m start n (Host.tpCommentsOrEmpty (view m start n tp.p)) tp' := ends_lines _ h hfuel

end Lines

/-! ## Results -/

section Results

variable {α β : Type} {m : Mem} {start n : ℕ} {tp : RawParser}

/-- A result of a part of the parser: its value and the cursor after it, or a failure. -/
def Result (m : Mem) (start n : ℕ) (o : Option (α × TextParser)) (r : Option α)
    (tp : RawParser) : Prop :=
  match o with
  | some (a, t) => r = some a ∧ At m start n t tp
  | none => r = none ∧ Inside start n tp

lemma Result.inside {o : Option (α × TextParser)} {r : Option α}
    (h : Result m start n o r tp) : Inside start n tp := by
  match o with
  | some _ => exact h.2.1
  | none => exact h.2

/-- The part `k` after one that may fail, where a failure is handed on. -/
lemma ends_bind_result {x : Parse (Option α)} {k : Option α → Parse (Option β)}
    {o : Option (α × TextParser)} {g : α × TextParser → Option (β × TextParser)}
    (hx : Ends x tp (Result m start n o)) (hnone : k none = pure none)
    (hf : ∀ a t tp', o = some (a, t) → At m start n t tp' →
      Ends (k (some a)) tp' (Result m start n (g (a, t)))) :
    Ends (x >>= k) tp (Result m start n (o.bind g)) := by
  refine hx.bind ?_
  intro r tp₁ h₁
  rcases o with _ | ⟨a, t⟩
  · obtain ⟨rfl, hin⟩ := h₁
    rw [hnone]
    exact ends_pure ⟨rfl, hin⟩
  · obtain ⟨rfl, hat⟩ := h₁
    exact hf a t tp₁ rfl hat

/-- The result of a test, with the cursor after one that succeeds. -/
def TestResult (m : Mem) (start n : ℕ) (o : Option TextParser) (b : Bool) (tp : RawParser) : Prop :=
  b = o.isSome ∧ Inside start n tp ∧ ∀ t, o = some t → At m start n t tp

/-- The part after a test that may fail. -/
lemma ends_bind_test {x : Parse Bool} {y : Parse (Option β)} {o : Option TextParser}
    {g : TextParser → Option (β × TextParser)} (hx : Ends x tp (TestResult m start n o))
    (hf : ∀ t tp', o = some t → At m start n t tp' → Ends y tp' (Result m start n (g t))) :
    Ends (do if ← x then y else return none) tp (Result m start n (o.bind g)) := by
  refine hx.bind ?_
  rintro b tp₁ ⟨rfl, hin, hat⟩
  rcases o with _ | t
  · exact ends_pure ⟨rfl, hin⟩
  · exact hf t tp₁ rfl (hat t rfl)

end Results

/-! ## Matching -/

section Match

variable {m : Mem} {start n : ℕ} {tp : RawParser} {fuel : ℕ}

/-- A part of the file that lies behind the cursor. -/
lemma take_rest_view {p k : ℕ} (hp : start ≤ p) (hk : p + k ≤ start + n) :
    (view m start n p).rest.take k = (List.range k).map fun i => m (p + i) := by
  change ((fileBytes m start n).drop (p - start)).take k = _
  apply List.ext_getElem
  · rw [List.length_take, List.length_drop, length_fileBytes, List.length_map, List.length_range]
    omega
  · intro i hi hi'
    rw [List.getElem_take, List.getElem_drop, List.getElem_map, List.getElem_range]
    simp only [fileBytes, List.getElem_map, List.getElem_range]
    congr 1
    omega

lemma holdsAt_iff_map {a : ℕ} {str : List UInt8} :
    HoldsAt m a str ↔ (List.range str.length).map (fun i => m (a + i)) = str := by
  constructor
  · intro h
    apply List.ext_getElem
    · rw [List.length_map, List.length_range]
    · intro i _ hi
      rw [List.getElem_map, List.getElem_range, h i hi]
  · intro h i hi
    have hget := List.getElem_of_eq h (show i < _ by rw [List.length_map, List.length_range]; exact hi)
    rwa [List.getElem_map, List.getElem_range] at hget

/-- The comparison stops at the first difference. -/
lemma ends_strncmpEq (h : Inside start n tp) {a : ℕ} (str : List UInt8) (ha : start ≤ a)
    (hle : a + str.length ≤ start + n) :
    Ends (strncmpEq m a str) tp fun b tp' =>
      Inside start n tp' ∧ tp'.p = tp.p ∧ (b = true ↔ HoldsAt m a str) := by
  induction str generalizing a tp with
  | nil => exact ends_pure ⟨h, rfl, iff_of_true rfl fun i hi => absurd hi (Nat.not_lt_zero i)⟩
  | cons c str ih =>
    rw [List.length_cons] at hle
    refine (ends_readByte h ha (by omega)).bind ?_
    rintro _ tp₁ ⟨rfl, h₁, hp₁⟩
    refine Ends.ite (fun heq => ?_) fun hne => ?_
    · refine (ih h₁ (by omega) (by omega)).mono ?_
      rintro b tp₂ ⟨h₂, hp₂, hb⟩
      exact ⟨h₂, hp₂.trans hp₁, by rw [hb, holdsAt_cons, and_iff_right heq]⟩
    · exact ends_pure ⟨h₁, hp₁, iff_of_false Bool.false_ne_true fun hh => hne (holdsAt_cons.1 hh).1⟩

/-- The cursor stays where it is when there is no match. -/
lemma ends_tpMatch (h : Inside start n tp) (str : List UInt8) :
    Ends (tpMatch m str) tp fun b tp' =>
      b = (Host.tpMatch (view m start n tp.p) str).isSome ∧
        At m start n ((Host.tpMatch (view m start n tp.p) str).getD (view m start n tp.p)) tp' := by
  have hle := h.start_le
  have hcond : (tp.p < tp.e ∧ tp.p + str.length ≤ tp.e) ↔
      ((view m start n tp.p).p < (view m start n tp.p).data.length ∧
        (view m start n tp.p).p + str.length ≤ (view m start n tp.p).data.length) := by
    change _ ↔ (tp.p - start < (fileBytes m start n).length ∧
      tp.p - start + str.length ≤ (fileBytes m start n).length)
    rw [length_fileBytes, h.e_eq]
    omega
  refine ends_get_bind (Ends.ite (fun hin => ?_) fun hout => ?_)
  · have hin' := hcond.1 hin
    rw [h.e_eq] at hin
    refine (ends_strncmpEq h str hle hin.2).bind ?_
    rintro b tp₁ ⟨h₁, hp₁, hb⟩
    rw [holdsAt_iff_map, ← take_rest_view hle hin.2] at hb
    refine Ends.ite (fun htrue => ?_) fun hfalse => ?_
    · refine (ends_setP h₁ (by omega) (by omega)).bind ?_
      rintro _ tp₂ ⟨h₂, hp₂⟩
      rw [Host.tpMatch, if_pos ⟨hin'.1, hin'.2, hb.1 htrue⟩]
      exact ends_pure ⟨rfl, h₂, by rw [hp₂, view_add _ hle]; rfl⟩
    · rw [Host.tpMatch, if_neg fun hc => hfalse (hb.2 hc.2.2)]
      exact ends_pure ⟨rfl, h₁, by rw [hp₁]; rfl⟩
  · rw [Host.tpMatch, if_neg fun hc => hout (hcond.2 ⟨hc.1, hc.2.1⟩)]
    exact ends_pure ⟨rfl, h.at⟩

lemma ends_tpMatch_test (h : Inside start n tp) (str : List UInt8) :
    Ends (tpMatch m str) tp (TestResult m start n (Host.tpMatch (view m start n tp.p) str)) := by
  refine (ends_tpMatch h str).mono ?_
  rintro b tp₁ ⟨hb, hat⟩
  refine ⟨hb, hat.1, fun t ht => ?_⟩
  rw [ht, Option.getD_some] at hat
  exact hat

end Match

/-! ## Identifiers and numbers -/

section Values

variable {m : Mem} {start n : ℕ} {tp : RawParser} {fuel : ℕ}

lemma ends_tpHexByte (h : Inside start n tp) :
    Ends (tpHexByte m) tp fun r tp' =>
      Result m start n (Host.tpHexByte (view m start n tp.p)) r tp' := by
  have hle := h.start_le
  have hcond : tp.p + 2 ≤ tp.e ↔
      (view m start n tp.p).p + 2 ≤ (view m start n tp.p).data.length := by
    change _ ↔ tp.p - start + 2 ≤ (fileBytes m start n).length
    rw [length_fileBytes, h.e_eq]
    omega
  refine ends_get_bind (Ends.ite (fun hin => ?_) fun hout => ?_)
  · have hin' := hcond.1 hin
    rw [h.e_eq] at hin
    have hhi : (view m start n tp.p).data[(view m start n tp.p).p]? = some (m tp.p) := by
      have hcur := cur?_view (m := m) (n := n) hle
      rwa [if_pos (by omega)] at hcur
    have hlo : (view m start n tp.p).data[(view m start n tp.p).p + 1]? = some (m (tp.p + 1)) := by
      have hcur := cur?_view (m := m) (n := n) (show start ≤ tp.p + 1 by omega)
      rw [view_add 1 hle, if_pos (by omega)] at hcur
      exact hcur
    refine (ends_readByte h hle (by omega)).bind ?_
    rintro _ tp₁ ⟨rfl, h₁, hp₁⟩
    refine (ends_readByte h₁ (show start ≤ tp.p + 1 by omega) (by omega)).bind ?_
    rintro _ tp₂ ⟨rfl, h₂, hp₂⟩
    rw [Host.tpHexByte, if_pos hin', hhi, hlo, Option.bind_some, Option.bind_some]
    -- both digits must be good
    rcases hexDigit (m tp.p) with _ | hi
    · exact ends_pure (show Result m start n none none tp₂ from ⟨rfl, h₂⟩)
    rcases hexDigit (m (tp.p + 1)) with _ | lo
    · exact ends_pure (show Result m start n none none tp₂ from ⟨rfl, h₂⟩)
    · refine (ends_setP h₂ (show start ≤ tp.p + 2 by omega) (by omega)).bind ?_
      rintro _ tp₃ ⟨h₃, hp₃⟩
      refine ends_pure (show Result m start n (some (_, (view m start n tp.p).advance 2)) _ tp₃ from
        ⟨rfl, h₃, ?_⟩)
      rw [hp₃, view_add 2 hle]
  · rw [Host.tpHexByte, if_neg (fun hc => hout (hcond.2 hc))]
    exact ends_pure ⟨rfl, h⟩

lemma ends_tpHexBytes (k v : ℕ) (h : Inside start n tp) :
    Ends (tpHexBytes m k v) tp
      (Result m start n (Host.tpHexBytes k v (view m start n tp.p))) := by
  induction k generalizing v tp with
  | zero => exact ends_pure ⟨rfl, h.at⟩
  | succ k ih =>
    refine ends_bind_result (ends_tpHexByte h) rfl fun b t tp₁ _ h₁ => ?_
    rw [← h₁.2]
    exact ih _ h₁.1

lemma hexDigit_bind_isSome (o : Option UInt8) :
    (o.bind hexDigit).isSome = o.any fun c => (hexDigit c).isSome := by
  cases o with
  | none => rfl
  | some c => rfl

lemma ends_tpHexU64Try (h : Inside start n tp) :
    Ends (tpHexU64Try m) tp (Result m start n (Host.tpHexU64 (view m start n tp.p))) := by
  refine ends_bind_test (ends_tpMatch_test h _) fun t tp₁ _ h₁ => ?_
  refine ends_bind_result (h₁.2 ▸ ends_tpHexBytes 8 0 h₁.1) rfl fun v t' tp₂ _ h₂ => ?_
  simp only [hexDigit_bind_isSome, ← h₂.2]
  -- a seventeenth digit is refused
  refine ends_ifCurIs h₂.1 (fun hdigit _ tp₃ h₃ _ => ?_) fun hdigit tp₃ h₃ hp₃ => ?_
  · rw [if_pos hdigit]
    exact ends_pure ⟨rfl, h₃⟩
  · rw [hdigit, if_neg Bool.false_ne_true]
    exact ends_pure ⟨rfl, h₃, by rw [hp₃]⟩

/-- On failure the cursor is where it was. -/
lemma ends_tpHexU64 (h : Inside start n tp) :
    Ends (tpHexU64 m) tp fun r tp' =>
      Result m start n (Host.tpHexU64 (view m start n tp.p)) r tp' ∧
        (r = none → tp'.p = tp.p) := by
  refine ends_get_bind ?_
  refine (ends_tpHexU64Try h).bind ?_
  intro r tp₁ h₁
  rcases hv : Host.tpHexU64 (view m start n tp.p) with _ | ⟨v, t⟩
  · rw [hv] at h₁
    obtain ⟨rfl, hin⟩ := h₁
    refine (ends_setP hin h.start_le h.p_le).bind ?_
    rintro _ tp₂ ⟨h₂, hp₂⟩
    exact ends_pure ⟨⟨rfl, h₂⟩, fun _ => hp₂⟩
  · rw [hv] at h₁
    obtain ⟨rfl, hat⟩ := h₁
    exact ends_pure ⟨⟨rfl, hat⟩, fun hnone => absurd hnone (Option.some_ne_none v)⟩

end Values

/-! ## Names -/

section Names

variable {m : Mem} {start n : ℕ} {tp : RawParser} {fuel : ℕ}

/-- The pointer of the loop moves by one byte, and the cursor stays where it is. -/
lemma ends_identIteration {q : ℕ} (h : Inside start n tp) (hq : start ≤ q) :
    Ends (identIteration m q) tp fun r tp' =>
      (∀ q', r = .next q' → (view m start n q).cur?.any isIdent = true ∧ Inside start n tp' ∧
        tp'.p = tp.p ∧ q' = q + 1) ∧
      ∀ q', r = .exit q' → (view m start n q).cur?.any isIdent = false ∧ Inside start n tp' ∧
        tp'.p = tp.p ∧ q' = q := by
  rw [cur?_view hq]
  refine ends_get_bind (Ends.ite (fun hlt => ?_) fun hge => ?_)
  · rw [h.e_eq] at hlt
    refine (ends_readByte h hq hlt).bind ?_
    rintro _ tp₁ ⟨rfl, h₁, hp₁⟩
    rw [if_pos hlt, Option.any_some]
    refine Ends.ite (fun htrue => ?_) fun hfalse => ?_
    · exact ends_next ⟨htrue, h₁, hp₁, rfl⟩
    · exact ends_exit ⟨Bool.not_eq_true _ ▸ hfalse, h₁, hp₁, rfl⟩
  · rw [h.e_eq] at hge
    rw [if_neg hge]
    exact ends_exit ⟨rfl, h, rfl, rfl⟩

lemma ends_identLoop (h : Inside start n tp) (hfuel : n < fuel) :
    Ends (loop (identIteration m) fuel tp.p) tp fun q tp' =>
      Inside start n tp' ∧ tp'.p = tp.p ∧ start ≤ q ∧
        view m start n q = tpSkip isIdent (view m start n tp.p) := by
  have hle := h.start_le
  refine ends_loop (fun q s => Inside start n s ∧ s.p = tp.p ∧ start ≤ q ∧
    tpSkip isIdent (view m start n q) = tpSkip isIdent (view m start n tp.p))
    (fun q _ => start + n - q) ?_ ⟨h, rfl, hle, rfl⟩ (by omega)
  rintro q s ⟨hs, hsp, hq, heq⟩
  refine (ends_identIteration hs hq).mono ?_
  rintro r s' ⟨hnext, hexit⟩
  constructor
  · rintro q' rfl
    obtain ⟨hcur, hs', hp, rfl⟩ := hnext q' rfl
    have hlt := lt_of_cur?_any hq hcur
    refine ⟨⟨hs', hp.trans hsp, by omega, ?_⟩, by omega⟩
    rw [view_add 1 hq, ← tpSkip_of_cur hcur, heq]
  · rintro q' rfl
    obtain ⟨hcur, hs', hp, rfl⟩ := hexit q' rfl
    exact ⟨hs', hp.trans hsp, hq, by rw [← heq, tpSkip_of_not_cur hcur]⟩

/-- The bytes of the file that a name consists of. -/
structure NameAt (m : Mem) (start n p : ℕ) (s : List UInt8) : Prop where
  start_le : start ≤ p
  le : p + s.length ≤ start + n
  holds : HoldsAt m p s
  ne_zero : ∀ c ∈ s, c ≠ 0

lemma isIdent_ne_zero {c : UInt8} (h : isIdent c = true) : c ≠ 0 := by
  rintro rfl
  exact absurd h (by decide)

lemma nameAt_of_tpIdent {p : ℕ} {s : List UInt8} {t : TextParser} (hp : start ≤ p)
    (h : Host.tpIdent (view m start n p) = some (s, t)) : NameAt m start n p s := by
  obtain ⟨⟨hne, hall⟩, hrest⟩ := tpIdent_sound h
  have hpos := List.length_pos_iff.2 hne
  have hlen : (view m start n p).rest.length = n - (p - start) := length_rest_view p
  rw [hrest, List.length_append] at hlen
  have hle : p + s.length ≤ start + n := by omega
  refine ⟨hp, hle, ?_, fun c hc => isIdent_ne_zero (hall c hc)⟩
  rw [holdsAt_iff_map, ← take_rest_view hp hle, hrest, List.take_left]

/-- The name is returned as a pointer into the file. -/
lemma ends_tpIdent (h : Inside start n tp) (hfuel : n < fuel) :
    Ends (tpIdent m fuel) tp
      (Result m start n ((Host.tpIdent (view m start n tp.p)).map fun x =>
        ((tp.p, x.1.length), x.2))) := by
  refine ends_get_bind ((ends_identLoop h hfuel).bind ?_)
  rintro q tp₁ ⟨h₁, hp₁, hq, hview⟩
  have hle := h.start_le
  have hskip : q - start = (tpSkip isIdent (view m start n tp.p)).p := congrArg TextParser.p hview
  have hmoved : q - start = (view m start n tp.p).p ↔ q = tp.p := by
    change _ = tp.p - start ↔ _
    omega
  simp only [Host.tpIdent, ← hskip, hmoved]
  refine Ends.ite (fun heq => ?_) fun hne => ?_
  · rw [if_pos heq]
    exact ends_pure ⟨rfl, h₁⟩
  rw [if_neg hne, Option.map_some]
  obtain ⟨hmove, hbound⟩ := p_tpSkip_view (m := m) (n := n) isIdent tp.p
  rw [← hskip] at hmove
  have hlen : ((view m start n tp.p).rest.take (q - start - (view m start n tp.p).p)).length =
      q - tp.p := by
    rw [List.length_take, length_rest_view]
    change min (q - start - (tp.p - start)) _ = _
    omega
  have hp := h.p_le
  refine (ends_setP h₁ hq (by omega)).bind ?_
  rintro _ tp₂ ⟨h₂, hp₂⟩
  exact ends_pure ⟨by rw [hlen], h₂, by rw [hp₂, hview]⟩

/-- The copy stops at a zero byte, and a name has none. -/
lemma ends_strndup (h : Inside start n tp) {a : ℕ} {s : List UInt8}
    (hs : NameAt m start n a s) :
    Ends (strndup m a s.length) tp fun r tp' => r = s ∧ Inside start n tp' ∧ tp'.p = tp.p := by
  induction s generalizing a tp with
  | nil => exact ends_pure ⟨rfl, h, rfl⟩
  | cons c s ih =>
    obtain ⟨ha, hle, hh, hne⟩ := hs
    rw [List.length_cons] at hle
    obtain ⟨rfl, htail⟩ := holdsAt_cons.1 hh
    obtain ⟨hc, hne⟩ := List.forall_mem_cons.1 hne
    refine (ends_readByte h ha (by omega)).bind ?_
    rintro _ tp₁ ⟨rfl, h₁, hp₁⟩
    refine Ends.ite (fun hz => absurd hz hc) fun _ => ?_
    refine (ih h₁ ⟨by omega, by omega, htail, hne⟩).bind ?_
    rintro _ tp₂ ⟨rfl, h₂, hp₂⟩
    exact ends_pure ⟨rfl, h₂, hp₂.trans hp₁⟩

end Names

end VulnerableKext.Host.Raw
