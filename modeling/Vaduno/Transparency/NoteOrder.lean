import Vaduno.Transparency.NoteLines

/-! Whether the order of the lines of a note matters, and lines on which nothing verifies. Of each witness
the first line that verifies is taken: its place in the note matters exactly where another one carries
a different time. -/
namespace Vaduno.Transparency
open Ecma

/-! ### Rewriting the lines of a note -/

theorem cutBlankLine_some (cut : cutBlankLine note = some (body, sigBlock)) :
    note = body ++ 10 :: sigBlock ∧
      ∀ sigBlock', cutBlankLine (body ++ 10 :: sigBlock') = some (body, sigBlock') := by
  induction note using cutBlankLine.induct generalizing body with
  | case1 rest =>
    cases cut
    exact ⟨rfl, fun _ => rfl⟩
  | case2 u rest first ih =>
    rw [cutBlankLine.eq_2 u rest first] at cut
    obtain ⟨⟨front, back⟩, found, parts⟩ := Option.map_eq_some_iff.mp cut
    cases parts
    obtain ⟨rfl, again⟩ := ih found
    refine ⟨rfl, fun sigBlock' => ?_⟩
    have apart : ∀ tail, u = 10 → front ++ 10 :: sigBlock' = 10 :: tail → False := by
      rintro tail rfl same
      cases front with
      | nil => exact first back rfl rfl
      | cons v front =>
        cases same
        exact first _ rfl rfl
    rw [List.cons_append, cutBlankLine.eq_2 u _ apart, again]
    rfl
  | case3 => cases cut

/-- The bytes of a text followed by lines, each after a line break. -/
theorem length_utf8_lines (front : JsString) (pieces : List JsString) :
    (utf8 (front ++ pieces.flatMap fun piece => 10 :: piece)).length =
      (utf8 front).length + (pieces.map fun piece => (utf8 piece).length + 1).sum := by
  induction pieces generalizing front with
  | nil => simp
  | cons piece pieces ih =>
    have step := ih (front ++ 10 :: piece)
    rw [length_utf8_line, List.append_assoc] at step
    rw [List.flatMap_cons, step, List.map_cons, List.sum_cons]
    omega

theorem break_intercalate {pieces : List JsString} (some : pieces ≠ []) :
    10 :: [10].intercalate pieces = pieces.flatMap fun piece => 10 :: piece := by
  induction pieces with
  | nil => exact absurd rfl some
  | cons piece pieces ih =>
    cases pieces with
    | nil => simp [List.intercalate]
    | cons next pieces =>
      rw [List.flatMap_cons, ← ih (List.cons_ne_nil _ _), List.intercalate_cons_of_ne_nil (List.cons_ne_nil _ _)]
      simp

theorem not_mem_of_mem_splitOn {s : JsString} : ∀ piece ∈ s.splitOn 10, 10 ∉ piece := by
  induction s with
  | nil => simp
  | cons u s ih =>
    rw [List.splitOn_cons_eq_if_modifyHead]
    split
    · simpa using ih
    · rename_i other
      obtain ⟨head, tail, pieces⟩ := List.exists_cons_of_ne_nil (List.splitOn_ne_nil 10 s)
      rw [pieces] at ih ⊢
      rw [List.forall_mem_cons] at ih
      rw [List.modifyHead_cons, List.forall_mem_cons]
      refine ⟨?_, ih.2⟩
      rw [List.mem_cons, not_or]
      exact ⟨fun same => other (by simp [same]), ih.1⟩

theorem exchange_perm (front mid back : List α) (a b : α) :
    (front ++ b :: (mid ++ a :: back)).Perm (front ++ a :: (mid ++ b :: back)) := by
  refine List.Perm.append_left front ?_
  calc (b :: (mid ++ a :: back)).Perm (b :: a :: (mid ++ back)) := List.perm_middle.cons b
    _ |>.Perm (a :: b :: (mid ++ back)) := List.Perm.swap a b _
    _ |>.Perm (a :: (mid ++ b :: back)) := List.perm_middle.symm.cons a

theorem signatureLines_pieces (some : signatureLines sigBlock ≠ []) :
    ∃ ending, sigBlock.splitOn 10 = signatureLines sigBlock ++ ending ∧
      (ending = [[]] ∨ ending = [] ∧ (signatureLines sigBlock).getLast? ≠ Option.some []) := by
  unfold signatureLines at some ⊢
  split at some
  · exact absurd rfl some
  · rename_i written
    simp only [if_neg written]
    split
    · rename_i last
      obtain ⟨lines, pieces⟩ := List.getLast?_eq_some_iff.mp last
      rw [pieces]
      exact ⟨[[]], by rw [List.dropLast_concat], .inl rfl⟩
    · rename_i last
      exact ⟨[], (List.append_nil _).symm, .inr ⟨rfl, last⟩⟩

theorem signatureLines_of_pieces {lines ending : List JsString} (pieces : sigBlock.splitOn 10 = lines ++ ending)
    (nonempty : ∃ line ∈ lines, line ≠ []) (ends : ending = [[]] ∨ ending = [] ∧ lines.getLast? ≠ some []) :
    signatureLines sigBlock = lines := by
  have written : sigBlock ≠ [] := by
    rintro rfl
    obtain ⟨line, member, some⟩ := nonempty
    have listed : line ∈ lines ++ ending := List.mem_append_left _ member
    rw [← pieces, List.splitOn_nil] at listed
    exact some (List.mem_singleton.mp listed)
  unfold signatureLines
  rw [if_neg written, pieces]
  rcases ends with rfl | ⟨rfl, last⟩
  · rw [if_pos List.getLast?_concat, List.dropLast_concat]
  · rw [List.append_nil, if_neg last]

/-- Two lines of a note can change places. -/
theorem NoteParts.exchange (parts : NoteParts note body (front ++ a :: (mid ++ b :: back))) (first : a ≠ [])
    (second : b ≠ []) : ∃ note', NoteParts note' body (front ++ b :: (mid ++ a :: back)) := by
  obtain ⟨sigBlock, cut, lines⟩ := parts.cut
  have perm := exchange_perm front mid back a b
  obtain ⟨ending, pieces, ends⟩ := @signatureLines_pieces sigBlock (by simp [lines])
  rw [lines] at pieces ends
  have other : (front ++ b :: (mid ++ a :: back) ++ ending).Perm (sigBlock.splitOn 10) := by
    rw [pieces]
    exact perm.append_right ending
  have some : front ++ b :: (mid ++ a :: back) ++ ending ≠ [] := by simp
  have split : ([10].intercalate (front ++ b :: (mid ++ a :: back) ++ ending) : JsString).splitOn 10 =
      front ++ b :: (mid ++ a :: back) ++ ending :=
    List.splitOn_intercalate 10 (fun piece member => not_mem_of_mem_splitOn piece (other.subset member)) some
  have last : ending = [[]] ∨ ending = [] ∧ (front ++ b :: (mid ++ a :: back)).getLast? ≠ Option.some [] := by
    have tail : ∀ x y : JsString, (front ++ x :: (mid ++ y :: back)).getLast? = (y :: back).getLast? := by
      intro x y
      rw [List.getLast?_append_cons, ← List.cons_append, List.getLast?_append_cons]
    refine ends.imp id fun ⟨unended, last⟩ => ⟨unended, ?_⟩
    rw [tail] at last ⊢
    cases back with
    | nil => simpa using first
    | cons c back => exact last
  obtain ⟨text, again⟩ := cutBlankLine_some cut
  refine ⟨body ++ 10 :: [10].intercalate (front ++ b :: (mid ++ a :: back) ++ ending),
    ⟨_, again _, signatureLines_of_pieces split ⟨b, by simp, second⟩ last⟩, ?_, ?_⟩
  · have short := parts.short
    have whole : 10 :: sigBlock = (sigBlock.splitOn 10).flatMap fun piece => 10 :: piece := by
      rw [← break_intercalate (List.splitOn_ne_nil 10 sigBlock), List.intercalate_splitOn]
    rw [text, whole, length_utf8_lines] at short
    rw [break_intercalate some, length_utf8_lines,
      (other.map fun piece => (utf8 piece).length + 1).sum_nat]
    exact short
  · exact perm.length_eq.trans_le parts.few

/-! ### What the order can change -/

section Carried
variable (crypto : Crypto)

/-- The cosignatures that a note carries for witnesses: one for each line that verifies. -/
def Carried (note : JsString) (witnesses : List KnownWitness) (opts : CosignatureVerifyOptions)
    (v : VerifiedCosignature) : Prop :=
  ∃ parsed bounds, parseNote note = .ok parsed ∧ opts.bounds = some bounds ∧
    ∃ w ∈ firstByName witnesses, ∃ alg, ∃ sig ∈ parsed.signatures,
      counted crypto opts parsed.body parsed.checkpoint bounds w alg sig = some v

variable (witnesses : List KnownWitness) (binding : LogBinding) (opts : CosignatureVerifyOptions)
  (laterSeconds : Number)

/-- The two questions of an assessment: which of the witnesses have cosigned, and which of their
ML-DSA-44 keys. -/
def questions : List (List KnownWitness × CosignatureVerifyOptions) :=
  [(witnesses, opts), (pqWitnesses witnesses, { opts with nowSeconds := laterSeconds })]

/-- A line that is not read, or does not verify under a trusted key: the log's or a witness's. -/
def Junk (body line : JsString) : Prop :=
  ∀ sig, parseSignatureLine line = some sig →
    countedLog crypto body (binding.logKeyName.getD binding.origin) binding.logPublicKeyPem
      sigTypeEd25519 sig = false ∧
    ∀ q ∈ questions witnesses opts laterSeconds, ∀ checkpoint bounds, parseBody body = .ok checkpoint →
      q.2.bounds = some bounds → ∀ w ∈ q.1, ∀ alg,
        counted crypto q.2 body checkpoint bounds w alg sig = none

/-- The second note has the lines of the first one in some order, and junk in between. -/
def Rearranged (note note' : JsString) : Prop :=
  ∃ body lines lines' junk, NoteParts note body lines ∧ NoteParts note' body lines' ∧
    lines'.Perm (lines ++ junk) ∧ ∀ line ∈ junk, Junk crypto witnesses binding opts laterSeconds body line

/-- No two lines of a note verify for one witness and one algorithm and carry different times. -/
def Unequivocal (note : JsString) : Prop :=
  ∀ q ∈ questions witnesses opts laterSeconds, ∀ v v', Carried crypto note q.1 q.2 v →
    Carried crypto note q.1 q.2 v' → v.name = v'.name → v.alg = v'.alg → v.timestamp = v'.timestamp

/-- The time is the earliest of the cosignatures of a kind. -/
def IsEarliest (kind : VerifiedCosignature → Prop) (time : Option Number) : Prop :=
  ∃ v, kind v ∧ time = some v.timestamp ∧ ∀ v', kind v' → ¬v'.timestamp < v.timestamp

/-- The time that an assessment gives is the earliest of all lines that count for its label. -/
def WitnessedSince (note : JsString) (a : AnchorAssessment) : Prop :=
  match a.strength with
  | .witnessedPq => IsEarliest
      (Carried crypto note (pqWitnesses witnesses) { opts with nowSeconds := laterSeconds }) a.witnessedAt
  | .witnessed => IsEarliest (Carried crypto note witnesses opts) a.witnessedAt
  | .unwitnessed => a.witnessedAt = none

/-- A note proves the same in any order and under any junk. -/
structure ProvesTheSame (note : JsString) (k : Number) : Prop where
  listed : ∀ note', Rearranged crypto witnesses binding opts laterSeconds note note' →
    ∀ q ∈ questions witnesses opts laterSeconds,
      verifyCosignatures crypto note' q.1 q.2 = verifyCosignatures crypto note q.1 q.2
  assessed : ∀ note', Rearranged crypto witnesses binding opts laterSeconds note note' →
    assessCheckpointAnchor crypto note' witnesses k binding opts laterSeconds =
      assessCheckpointAnchor crypto note witnesses k binding opts laterSeconds
  timed : ∀ a, assessCheckpointAnchor crypto note witnesses k binding opts laterSeconds = .ok a →
    WitnessedSince crypto witnesses opts laterSeconds note a

end Carried

section Order
variable {crypto : Crypto} {witnesses : List KnownWitness} {binding : LogBinding}
  {opts : CosignatureVerifyOptions} {laterSeconds : Number}

theorem counted_some (found : counted crypto opts body checkpoint bounds w alg sig = some v) :
    v.name = w.name ∧ v.alg = alg := by
  cases alg with
  | ed25519 =>
    simp only [counted, countedEd25519, Option.bind_eq_bind, Option.bind_eq_some_iff] at found
    obtain ⟨pem, -, raw, -, key, -, found⟩ := found
    split at found
    · cases found
    · split at found
      · cases found
      · split at found
        · cases found
        · split at found
          · cases found
          · split at found
            · cases found
              exact ⟨rfl, rfl⟩
            · cases found
  | mlDsa44 =>
    simp only [counted, countedMlDsa44, Option.bind_eq_bind, Option.bind_eq_some_iff] at found
    obtain ⟨pq, -, pem, -, raw, -, found⟩ := found
    split at found
    · cases found
    · split at found
      · cases found
      · split at found
        · cases found
        · split at found
          · cases found
          · split at found
            · cases found
              exact ⟨rfl, rfl⟩
            · cases found

/-- What is reported is the first of what the note carries. -/
theorem mem_verifyCosignatures_lines : v ∈ verifyCosignatures crypto note witnesses opts ↔
    ∃ parsed bounds, parseNote note = .ok parsed ∧ opts.bounds = some bounds ∧
      ∃ w ∈ firstByName witnesses, ∃ alg, parsed.signatures.findSome?
        (counted crypto opts parsed.body parsed.checkpoint bounds w alg) = some v := by
  constructor
  · intro listed
    obtain ⟨parsed, bounds, read, limits, -⟩ := mem_verifyCosignatures.mp listed
    rw [verifyCosignatures_lines read limits] at listed
    obtain ⟨w, known, listed⟩ := List.mem_flatMap.mp listed
    obtain ⟨alg, -, listed⟩ := List.mem_flatMap.mp listed
    exact ⟨parsed, bounds, read, limits, w, known, alg, Option.mem_toList.mp listed⟩
  · rintro ⟨parsed, bounds, read, limits, w, known, alg, found⟩
    rw [verifyCosignatures_lines read limits]
    refine List.mem_flatMap.mpr ⟨w, known, List.mem_flatMap.mpr ⟨alg, ?_, Option.mem_toList.mpr found⟩⟩
    cases alg <;> simp

theorem carried_of_mem (listed : v ∈ verifyCosignatures crypto note witnesses opts) :
    Carried crypto note witnesses opts v := by
  obtain ⟨parsed, bounds, read, limits, w, known, alg, found⟩ := mem_verifyCosignatures_lines.mp listed
  obtain ⟨sig, member, found⟩ := List.exists_of_findSome?_eq_some found
  exact ⟨parsed, bounds, read, limits, w, known, alg, sig, member, found⟩

theorem eq_of_name (left : w ∈ firstByName witnesses) (right : w' ∈ firstByName witnesses)
    (same : w.name = w'.name) : w = w' :=
  List.inj_on_of_nodup_map (firstByName_nodup witnesses) left right same

/-- Of each witness and algorithm one cosignature is reported. -/
theorem eq_of_mem_verifyCosignatures (left : v ∈ verifyCosignatures crypto note witnesses opts)
    (right : v' ∈ verifyCosignatures crypto note witnesses opts) (names : v.name = v'.name)
    (algs : v.alg = v'.alg) : v = v' := by
  obtain ⟨parsed, bounds, read, limits, w, known, alg, found⟩ := mem_verifyCosignatures_lines.mp left
  obtain ⟨parsed', bounds', read', limits', w', known', alg', found'⟩ :=
    mem_verifyCosignatures_lines.mp right
  obtain rfl := Except.ok.inj (read.symm.trans read')
  obtain rfl := Option.some.inj (limits.symm.trans limits')
  obtain ⟨sig, -, counts⟩ := List.exists_of_findSome?_eq_some found
  obtain ⟨sig', -, counts'⟩ := List.exists_of_findSome?_eq_some found'
  obtain ⟨name, rfl⟩ := counted_some counts
  obtain ⟨name', rfl⟩ := counted_some counts'
  obtain rfl := eq_of_name known known' (name.symm.trans (names.trans name'))
  rw [algs] at found
  exact Option.some.inj (found.symm.trans found')

/-- What the note carries has a reported cosignature of the same witness and algorithm. -/
theorem exists_mem_of_carried (carried : Carried crypto note witnesses opts v) :
    ∃ v' ∈ verifyCosignatures crypto note witnesses opts, v'.name = v.name ∧ v'.alg = v.alg := by
  obtain ⟨parsed, bounds, read, limits, w, known, alg, sig, member, counts⟩ := carried
  cases found : parsed.signatures.findSome?
      (counted crypto opts parsed.body parsed.checkpoint bounds w alg) with
  | none =>
    have nothing := List.findSome?_eq_none_iff.mp found sig member
    rw [counts] at nothing
    cases nothing
  | some v' =>
    obtain ⟨sig', -, counts'⟩ := List.exists_of_findSome?_eq_some found
    obtain ⟨name, alg⟩ := counted_some counts
    obtain ⟨name', alg'⟩ := counted_some counts'
    exact ⟨v', mem_verifyCosignatures_lines.mpr ⟨parsed, bounds, read, limits, w, known, _, found⟩,
      name'.trans name.symm, alg'.trans alg.symm⟩

theorem Unequivocal.reported_iff (unequivocal : Unequivocal crypto witnesses opts laterSeconds note)
    (asked : q ∈ questions witnesses opts laterSeconds) :
    v ∈ verifyCosignatures crypto note q.1 q.2 ↔ Carried crypto note q.1 q.2 v := by
  refine ⟨carried_of_mem, fun carried => ?_⟩
  obtain ⟨v', listed, name, alg⟩ := exists_mem_of_carried carried
  have time := unequivocal q asked v' v (carried_of_mem listed) carried name alg
  obtain ⟨n, t, a⟩ := v
  obtain ⟨n', t', a'⟩ := v'
  cases name
  cases alg
  cases time
  exact listed

/-! ### Notes in any order -/

theorem findSome?_rearranged {f : α → Option β} {l l' junk : List α} (perm : l'.Perm (l ++ junk))
    (idle : ∀ a ∈ junk, f a = none)
    (agree : ∀ a ∈ l, ∀ b ∈ l, ∀ x y, f a = some x → f b = some y → x = y) :
    l'.findSome? f = l.findSome? f := by
  have mem_of_found : ∀ {a x}, a ∈ l' → f a = some x → a ∈ l := by
    intro a x member found
    rcases List.mem_append.mp (perm.subset member) with kept | added
    · exact kept
    · rw [idle a added] at found
      cases found
  cases before : l.findSome? f with
  | none =>
    refine List.findSome?_eq_none_iff.mpr fun a member => ?_
    cases found : f a with
    | none => rfl
    | some x =>
      rw [List.findSome?_eq_none_iff.mp before a (mem_of_found member found)] at found
      cases found
  | some x =>
    obtain ⟨a, member, found⟩ := List.exists_of_findSome?_eq_some before
    cases after : l'.findSome? f with
    | none =>
      have stays := perm.symm.subset (List.mem_append_left junk member)
      rw [List.findSome?_eq_none_iff.mp after a stays] at found
      cases found
    | some y =>
      obtain ⟨b, member', found'⟩ := List.exists_of_findSome?_eq_some after
      rw [agree b (mem_of_found member' found') a member y x found' found]

theorem any_rearranged {p : α → Bool} {l l' junk : List α} (perm : l'.Perm (l ++ junk))
    (idle : ∀ a ∈ junk, p a = false) : l'.any p = l.any p := by
  have none : junk.any p = false := by
    refine List.any_eq_false.mpr fun a member => ?_
    rw [idle a member]
    exact Bool.false_ne_true
  rw [perm.any_eq, List.any_append, none, Bool.or_false]

/-- The signatures of rearranged lines. -/
theorem signatures_rearranged {lines lines' junk : List JsString} (perm : lines'.Perm (lines ++ junk)) :
    (lines'.filterMap parseSignatureLine).Perm
      (lines.filterMap parseSignatureLine ++ junk.filterMap parseSignatureLine) := by
  rw [← List.filterMap_append]
  exact perm.filterMap parseSignatureLine

theorem Unequivocal.listed (unequivocal : Unequivocal crypto witnesses opts laterSeconds note)
    (rearranged : Rearranged crypto witnesses binding opts laterSeconds note note')
    (asked : q ∈ questions witnesses opts laterSeconds) :
    verifyCosignatures crypto note' q.1 q.2 = verifyCosignatures crypto note q.1 q.2 := by
  obtain ⟨body, lines, lines', junk, parts, parts', perm, worthless⟩ := rearranged
  refine verifyCosignatures_congr parts parts' fun checkpoint bounds front limits w known alg => ?_
  have read := parts.parseNote
  rw [front] at read
  refine findSome?_rearranged (signatures_rearranged perm) ?_ ?_
  · intro sig member
    obtain ⟨line, added, entry⟩ := List.mem_filterMap.mp member
    exact (worthless line added sig entry).2 q asked checkpoint bounds front limits w
      (firstByName_subset known) alg
  · intro a left b right x y found found'
    have carried : Carried crypto note q.1 q.2 x := ⟨_, bounds, read, limits, w, known, alg, a, left, found⟩
    have carried' : Carried crypto note q.1 q.2 y :=
      ⟨_, bounds, read, limits, w, known, alg, b, right, found'⟩
    obtain ⟨name, kind⟩ := counted_some found
    obtain ⟨name', kind'⟩ := counted_some found'
    exact eq_of_mem_verifyCosignatures ((unequivocal.reported_iff asked).mpr carried)
      ((unequivocal.reported_iff asked).mpr carried') (name.trans name'.symm) (kind.trans kind'.symm)

theorem Unequivocal.quorum (unequivocal : Unequivocal crypto witnesses opts laterSeconds note)
    (rearranged : Rearranged crypto witnesses binding opts laterSeconds note note')
    (asked : q ∈ questions witnesses opts laterSeconds) (k : Number) :
    checkCosignatureQuorum crypto note' q.1 k binding q.2 =
      checkCosignatureQuorum crypto note q.1 k binding q.2 := by
  have verified := unequivocal.listed rearranged asked
  obtain ⟨body, lines, lines', junk, parts, parts', perm, worthless⟩ := rearranged
  refine checkCosignatureQuorum_congr parts parts' ?_ ?_
  · refine any_rearranged (signatures_rearranged perm) fun sig member => ?_
    obtain ⟨line, added, entry⟩ := List.mem_filterMap.mp member
    exact (worthless line added sig entry).1
  · rwa [verifyCosignatures_firstByName, verifyCosignatures_firstByName]

theorem first_asked : (witnesses, opts) ∈ questions witnesses opts laterSeconds := List.mem_cons_self

theorem second_asked : (pqWitnesses witnesses, { opts with nowSeconds := laterSeconds }) ∈
    questions witnesses opts laterSeconds := List.mem_cons_of_mem _ (List.mem_singleton_self _)

theorem earliest_least {verified : List VerifiedCosignature} (some : verified ≠ []) :
    ∃ v ∈ verified, earliest verified = Option.some v.timestamp ∧
      ∀ v' ∈ verified, ¬v'.timestamp < v.timestamp := by
  have irrefl : ∀ t : Number, ¬t < t := fun t below => Number.not_le_of_lt below (Number.le_of_lt below)
  induction verified using List.reverseRecOn with
  | nil => exact absurd rfl some
  | append_singleton verified v ih =>
    have step : earliest (verified ++ [v]) = (earliest verified).elim (Option.some v.timestamp) fun t =>
        if v.timestamp < t then Option.some v.timestamp else Option.some t := by
      unfold earliest
      rw [List.foldl_append]
      cases List.foldl _ _ verified <;> rfl
    rcases eq_or_ne verified [] with rfl | more
    · refine ⟨v, List.mem_singleton_self v, step, fun v' member => ?_⟩
      rw [List.mem_singleton.mp member]
      exact irrefl _
    · obtain ⟨w, member, least, below⟩ := ih more
      rw [least] at step
      rw [Option.elim_some] at step
      split at step
      · rename_i sooner
        refine ⟨v, by simp, step, fun v' listed earlier => ?_⟩
        rcases List.mem_append.mp listed with old | new
        · exact below v' old (Number.lt_of_lt_of_le earlier (Number.le_of_lt sooner))
        · rw [List.mem_singleton.mp new] at earlier
          exact irrefl _ earlier
      · rename_i later
        refine ⟨w, List.mem_append_left _ member, step, fun v' listed => ?_⟩
        rcases List.mem_append.mp listed with old | new
        · exact below v' old
        · rwa [List.mem_singleton.mp new]

/-- A quorum that passes has counted what was reported, and something was. -/
theorem verified_of_passes {result : QuorumResult}
    (answer : checkCosignatureQuorum crypto note witnesses k binding opts = .ok result)
    (passes : result.ok = true) : result.verified = verifyCosignatures crypto note witnesses opts ∧
      verifyCosignatures crypto note witnesses opts ≠ [] := by
  have verified := checkCosignatureQuorum_verified answer passes
  have verdict := quorumVerdict_of_answer answer
  rw [verifyCosignatures_firstByName] at verified
  refine ⟨verified, fun none => ?_⟩
  rw [passes] at verdict
  obtain ⟨-, ⟨-, positive⟩, -, reached⟩ := quorumVerdict_true.mp verdict
  rw [seenParties, verifyCosignatures_firstByName, none] at reached
  have low : ((([] : List VerifiedCosignature).filterMap fun v =>
      (groupParties crypto (firstByName witnesses)).partyOf v.name).dedup.length : ℤ) = 0 := rfl
  rw [low] at reached
  exact positive (Number.lt_of_le_of_lt reached (by decide +kernel))

theorem Unequivocal.timed (unequivocal : Unequivocal crypto witnesses opts laterSeconds note)
    {a : AnchorAssessment}
    (answer : assessCheckpointAnchor crypto note witnesses k binding opts laterSeconds = .ok a) :
    WitnessedSince crypto witnesses opts laterSeconds note a := by
  have earliest_of : ∀ q ∈ questions witnesses opts laterSeconds,
      verifyCosignatures crypto note q.1 q.2 ≠ [] →
      IsEarliest (Carried crypto note q.1 q.2) (earliest (verifyCosignatures crypto note q.1 q.2)) := by
    intro q asked some
    obtain ⟨v, listed, time, least⟩ := earliest_least some
    exact ⟨v, (unequivocal.reported_iff asked).mp listed, time,
      fun v' carried => least v' ((unequivocal.reported_iff asked).mpr carried)⟩
  obtain ⟨classical, pq, -⟩ := assessCheckpointAnchor_ok answer
  have whole := assessCheckpointAnchor_of_quorums classical pq
  rw [answer, Except.ok.injEq] at whole
  unfold WitnessedSince
  split_ifs at whole with strongest strong
  · obtain ⟨verified, some⟩ := verified_of_passes pq strongest
    have all : a.pq.verified.filter (·.alg = .mlDsa44) = a.pq.verified := by
      refine List.filter_eq_self.mpr fun v member => decide_eq_true ?_
      rw [verified] at member
      exact (mem_pq_verified member).1
    rw [all, verified] at whole
    rw [whole]
    exact earliest_of _ second_asked some
  · obtain ⟨verified, some⟩ := verified_of_passes classical strong
    rw [verified] at whole
    rw [whole]
    exact earliest_of _ first_asked some
  · rw [whole]

theorem findSome?_filterMap (l : List α) (g : α → Option β) (f : β → Option γ) :
    (l.filterMap g).findSome? f = l.findSome? fun a => (g a).bind f := by
  induction l with
  | nil => rfl
  | cons a l ih =>
    cases image : g a with
    | none => rw [List.filterMap_cons_none image, List.findSome?_cons, image, ih]; rfl
    | some b => rw [List.filterMap_cons_some image, List.findSome?_cons, List.findSome?_cons, image, ih]; rfl

/-- Where a later line counts for something else, the two change places. -/
theorem exists_exchanged {f : JsString → Option β} (parts : NoteParts note body lines)
    (found : lines.findSome? f = some x) (member : line ∈ lines) (counts : f line = some y) (other : y ≠ x)
    (empty : f [] = none) :
    ∃ note' lines', NoteParts note' body lines' ∧ lines'.Perm lines ∧ lines'.findSome? f = some y := by
  obtain ⟨front, a, rest, rfl, first, before⟩ := List.findSome?_eq_some_iff.mp found
  have later : line ∈ rest := by
    rcases List.mem_append.mp member with early | late
    · rw [before line early] at counts
      cases counts
    · rcases List.mem_cons.mp late with rfl | late
      · exact absurd (Option.some.inj (counts.symm.trans first)) other
      · exact late
  obtain ⟨mid, back, rfl⟩ := List.append_of_mem later
  have written : ∀ {line z}, f line = some z → line ≠ [] := by
    rintro _ z found rfl
    rw [empty] at found
    cases found
  obtain ⟨note', parts'⟩ := parts.exchange (written first) (written counts)
  refine ⟨note', _, parts', exchange_perm front mid back a line, ?_⟩
  exact List.findSome?_eq_some_iff.mpr ⟨front, line, _, rfl, counts, before⟩

theorem unequivocal_of_listed
    (listed : ∀ note', Rearranged crypto witnesses binding opts laterSeconds note note' →
      ∀ q ∈ questions witnesses opts laterSeconds,
        verifyCosignatures crypto note' q.1 q.2 = verifyCosignatures crypto note q.1 q.2) :
    Unequivocal crypto witnesses opts laterSeconds note := by
  intro q asked v v' carried carried' names algs
  by_contra differ
  -- One of the two is not the one that is reported.
  have equivocal : ∃ x ∈ verifyCosignatures crypto note q.1 q.2, ∃ y, Carried crypto note q.1 q.2 y ∧
      x.name = y.name ∧ x.alg = y.alg ∧ y ≠ x := by
    obtain ⟨x, reported, name, alg⟩ := exists_mem_of_carried carried
    by_cases same : v = x
    · exact ⟨x, reported, v', carried', name.trans names, alg.trans algs,
        fun same' => differ (congrArg VerifiedCosignature.timestamp (same.trans same'.symm))⟩
    · exact ⟨x, reported, v, carried, name, alg, same⟩
  obtain ⟨x, reported, y, ⟨parsed, bounds, read, limits, w, known, alg, sig, member, counts⟩, name, kind,
    other⟩ := equivocal
  obtain ⟨parsed', bounds', read', limits', u, known', alg', found⟩ :=
    mem_verifyCosignatures_lines.mp reported
  obtain rfl := Except.ok.inj (read.symm.trans read')
  obtain rfl := Option.some.inj (limits.symm.trans limits')
  obtain ⟨_, -, counts'⟩ := List.exists_of_findSome?_eq_some found
  obtain ⟨named, rfl⟩ := counted_some counts
  obtain ⟨named', rfl⟩ := counted_some counts'
  obtain rfl := eq_of_name known known' (named.symm.trans (name.symm.trans named'))
  rw [kind] at found
  obtain ⟨lines, parts, signatures⟩ := NoteParts.of_parseNote read
  rw [signatures] at member found
  rw [findSome?_filterMap] at found
  obtain ⟨line, listing, entry⟩ := List.mem_filterMap.mp member
  obtain ⟨note', lines', parts', perm, exchanged⟩ := exists_exchanged parts found listing
    (by rw [entry]; exact counts) other rfl
  have rearranged : Rearranged crypto witnesses binding opts laterSeconds note note' :=
    ⟨_, lines, lines', [], parts, parts', by rwa [List.append_nil], nofun⟩
  -- The exchanged note reports the other one.
  have reported' : y ∈ verifyCosignatures crypto note' q.1 q.2 := by
    have front := parts'.parseNote
    have whole := parts.parseNote
    rw [read] at whole
    cases text : parseBody parsed.body with
    | error e =>
      rw [text] at whole
      cases whole
    | ok checkpoint =>
      rw [text] at front whole
      have same : parsed.checkpoint = checkpoint := congrArg ParsedNote.checkpoint (Except.ok.inj whole)
      refine mem_verifyCosignatures_lines.mpr ⟨_, bounds, front, limits, w, known, y.alg, ?_⟩
      rw [findSome?_filterMap, ← same]
      exact exchanged
  rw [listed note' rearranged q asked] at reported'
  exact other (eq_of_mem_verifyCosignatures reported' reported name.symm kind.symm)

/-- Order and junk do not matter exactly where no witness has two lines that verify with one algorithm and
carry different times. -/
theorem provesTheSame_iff (crypto : Crypto) (witnesses : List KnownWitness) (binding : LogBinding)
    (opts : CosignatureVerifyOptions) (laterSeconds : Number) (note : JsString) (k : Number) :
    ProvesTheSame crypto witnesses binding opts laterSeconds note k ↔
      Unequivocal crypto witnesses opts laterSeconds note := by
  refine ⟨fun same => unequivocal_of_listed same.listed, fun unequivocal => ⟨?_, ?_, ?_⟩⟩
  · exact fun note' rearranged q asked => unequivocal.listed rearranged asked
  · intro note' rearranged
    have classical := unequivocal.quorum rearranged first_asked k
    have pq := unequivocal.quorum rearranged second_asked k
    unfold assessCheckpointAnchor
    rw [classical, pq]
  · exact fun a answer => unequivocal.timed answer

end Order

namespace Sample

def timedWitness : KnownWitness := ⟨"w", some witnessPem, none⟩

def timedIdInput : Bytes := utf8 "w" ++ [0x0a] ++ [sigTypeCosignatureV1] ++ witnessKey.spki.drop 12

/-- A cosignature of the body at time one, and one at time two. -/
def timedSignature (late : Bool) : Bytes := bytes 64
  (if late then
    0x1be5b42b8e88b57c088355cbaf1770bf014fff20dacf68ebfad8229abe1fe8b08e060c191729d1b0129d0628ed180b6f0c90590d02283c535ac892932315a50f
  else
    0x77cd9c50bf334d10f752b19c3fcfc8386259bc8075e596d2cf3b4bfbd7aa46661a5e3da39d19e58a86297da68f718c08b5120eade63999acca4e1028bf82e60e)

def timedLine (late : Bool) : JsString := sigPrefix ++ ascii (if late then
    "w XsKRrQAAAAAAAAACG+W0K46ItXwIg1XLrxdwvwFP/yDaz2jr+tgimr4f6LCOBgwZFynRsBKdBijtGAtvDJBZDQIoPFNayJKTIxWlDw=="
  else
    "w XsKRrQAAAAAAAAABd82cUL8zTRD3UrGcP8/IOGJZvIB15ZbSzztL+9eqRmYaXj2jnRnlioYpfaaPcYwItRIOreY5mazKThAov4LmDg==")

/-- The later cosignature comes first. -/
def timedNote : JsString := plainBody ++ 10 :: [logLine, timedLine true, timedLine false].flatMap (· ++ [10])

def timedEntry (late : Bool) : NoteSignature :=
  ⟨"w", "5ec291ad", uint64BE (if late then 2 else 1) ++ timedSignature late⟩

def timedParsed : ParsedNote where
  checkpoint := ⟨"log", 0, emptyTreeRootHex, none⟩
  body := plainBody
  signatures := [⟨"log", "acc32913", plainSignature⟩, timedEntry true, timedEntry false]
  malformedSignatures := 0

/-- The crypto library on what this note asks of it. -/
def timedCrypto : Crypto where
  sha256 input :=
    if input = plainIdInput then hash 0xacc32913664ce8314079dced12b4b8126da71323baeba4a3e21e3febdbee53d3
    else if input = timedIdInput then hash 0x5ec291ad5582d78d6c44f1931faec83e6310d32b3bc208934a7c4cc7f97610f3
    else hash 0
  createPublicKey := pqCrypto.createPublicKey
  edSign _ _ := .error .typeError
  edVerify input key signature := decide
    ((key.spki = logKey.spki ∧ input = utf8 plainBody ∧ signature = plainSignature) ∨
      key.spki = witnessKey.spki ∧ ∃ late : Bool, signature = timedSignature late ∧
        input = utf8 (ascii (if late then "cosignature/v1\ntime 2\n" else "cosignature/v1\ntime 1\n") ++ plainBody))

def timedOptions : CosignatureVerifyOptions := ⟨none, none, 1000, none⟩

def timedBounds : TimeBounds := ⟨1000, 300, .posInf⟩

theorem timed_values : (parseNote timedNote).toOption = some timedParsed ∧
    timedOptions.bounds = some timedBounds ∧
    ∀ late, counted timedCrypto timedOptions plainBody timedParsed.checkpoint timedBounds timedWitness .ed25519
      (timedEntry late) = some ⟨"w", if late then 2 else 1, .ed25519⟩ := by
  decide +kernel

theorem carried_timed (late : Bool) : Carried timedCrypto timedNote [timedWitness] timedOptions
    ⟨"w", if late then 2 else 1, .ed25519⟩ := by
  obtain ⟨read, limits, counts⟩ := timed_values
  refine ⟨timedParsed, timedBounds, of_toOption read, limits, timedWitness, List.mem_singleton_self _,
    .ed25519, timedEntry late, ?_, counts late⟩
  cases late <;> simp [timedParsed]

end Sample

/-- One witness has cosigned twice: which time is reported depends on the order of the lines. -/
theorem timed_note_depends_on_order :
    ¬ProvesTheSame Sample.timedCrypto [Sample.timedWitness] Sample.logBinding Sample.timedOptions 1000
      Sample.timedNote 1 := by
  intro same
  have equal := unequivocal_of_listed same.listed _ first_asked _ _ (Sample.carried_timed true)
    (Sample.carried_timed false) rfl rfl
  have differ : ¬(if true then (2 : Number) else 1) = if false then 2 else 1 := by decide +kernel
  exact differ equal

end Vaduno.Transparency
