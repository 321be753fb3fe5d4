import Vaduno.Transparency.Cosign
import Mathlib.Logic.Relation
import Mathlib.Data.Set.Card

/-! What the one-pass grouping of witness names comes to. Names of one party are always connected by
shared keys; the converse holds exactly where no name joins two others that share no key. -/
namespace Vaduno.Transparency
open Ecma

section Parties
variable (crypto : Crypto)

/-- Two witnesses have a key in common. -/
def Shares (u v : KnownWitness) : Prop :=
  ∃ fp, fp ∈ keyFingerprints crypto u ∧ fp ∈ keyFingerprints crypto v

/-- Connected by shared keys, through witnesses of the list. -/
def Connected (witnesses : List KnownWitness) : KnownWitness → KnownWitness → Prop :=
  Relation.EqvGen fun u v => u ∈ witnesses ∧ v ∈ witnesses ∧ Shares crypto u v

/-- Sharing a key is transitive among the listed witnesses. -/
def SharesTransitive (witnesses : List KnownWitness) : Prop :=
  ∀ u ∈ witnesses, ∀ v ∈ witnesses, ∀ w ∈ witnesses,
    Shares crypto u v → Shares crypto v w → Shares crypto u w

variable {crypto}

theorem Shares.symm (shares : Shares crypto u v) : Shares crypto v u := by
  obtain ⟨fp, left, right⟩ := shares
  exact ⟨fp, right, left⟩

theorem Connected.mono (connected : Connected crypto witnesses u v)
    (more : ∀ w ∈ witnesses, w ∈ witnesses') : Connected crypto witnesses' u v :=
  Relation.EqvGen.mono (fun _ _ link => ⟨more _ link.1, more _ link.2.1, link.2.2⟩) _ _ connected

/-- Where sharing is transitive, whatever is connected shares a key or is one witness. -/
theorem SharesTransitive.of_connected (transitive : SharesTransitive crypto witnesses)
    (connected : Connected crypto witnesses u v) :
    u = v ∨ u ∈ witnesses ∧ v ∈ witnesses ∧ Shares crypto u v := by
  induction connected with
  | rel u v link => exact .inr link
  | refl u => exact .inl rfl
  | symm u v _ ih =>
    rcases ih with same | ⟨left, right, shares⟩
    · exact .inl same.symm
    · exact .inr ⟨right, left, shares.symm⟩
  | trans u v w _ _ first second =>
    rcases first with rfl | ⟨left, middle, shares⟩
    · exact second
    · rcases second with rfl | ⟨-, right, shares'⟩
      · exact .inr ⟨left, middle, shares⟩
      · exact .inr ⟨left, right, transitive u left v middle w right shares shares'⟩

/-- The party a name is put in. -/
def Parties.partyFor (crypto : Crypto) (parties : Parties) (w : KnownWitness) : ℕ :=
  ((keyFingerprints crypto w).findSome? parties.fpToParty).getD parties.nextParty

theorem Parties.add_keyless {parties : Parties} (keyless : keyFingerprints crypto w = []) :
    parties.add crypto w = parties := by
  rw [Parties.add]
  exact if_pos keyless

theorem Parties.add_keyed {parties : Parties} (keyed : keyFingerprints crypto w ≠ []) :
    parties.add crypto w =
      { fpToParty := fun fp => if fp ∈ keyFingerprints crypto w then some (parties.partyFor crypto w)
          else parties.fpToParty fp
        nameToParty := parties.nameToParty ++ [(w.name, parties.partyFor crypto w)]
        nextParty := if ((keyFingerprints crypto w).findSome? parties.fpToParty).isSome
          then parties.nextParty else parties.nextParty + 1 } := by
  rw [Parties.add]
  exact if_neg keyed

theorem Parties.partyOf_add {parties : Parties} (keyed : keyFingerprints crypto w ≠ [])
    (new : parties.partyOf w.name = .none) (name : JsString) :
    (parties.add crypto w).partyOf name =
      if name = w.name then some (parties.partyFor crypto w) else parties.partyOf name := by
  rw [Parties.add_keyed keyed]
  simp only [Parties.partyOf, List.lookup_append] at new ⊢
  split_ifs with own
  · rw [own, new]
    simp
  · have other : (name == w.name) = false := by simpa using own
    simp [List.lookup_cons, other]

theorem groupParties_append (witnesses : List KnownWitness) (w : KnownWitness) :
    groupParties crypto (witnesses ++ [w]) = (groupParties crypto witnesses).add crypto w := by
  rw [groupParties, List.foldl_append]
  rfl

/-- What the table holds when some witnesses have been looked at. -/
structure Grouping (crypto : Crypto) (witnesses : List KnownWitness) (parties : Parties) : Prop where
  listed : parties.nameToParty.map Prod.snd = witnesses.filterMap fun w => parties.partyOf w.name
  named : ∀ w ∈ witnesses, (parties.partyOf w.name).isSome ↔ keyFingerprints crypto w ≠ []
  foreign : ∀ name, (∀ w ∈ witnesses, w.name ≠ name) → parties.partyOf name = none
  owner : ∀ fp party, parties.fpToParty fp = some party → ∃ w ∈ witnesses,
    fp ∈ keyFingerprints crypto w ∧ parties.partyOf w.name = some party
  covered : ∀ w ∈ witnesses, ∀ fp ∈ keyFingerprints crypto w, (parties.fpToParty fp).isSome
  below : ∀ name party, parties.partyOf name = some party → party < parties.nextParty
  sound : ∀ u ∈ witnesses, ∀ v ∈ witnesses, ∀ party, parties.partyOf u.name = some party →
    parties.partyOf v.name = some party → Connected crypto witnesses u v
  complete : SharesTransitive crypto witnesses → ∀ u ∈ witnesses, ∀ v ∈ witnesses,
    Shares crypto u v → parties.partyOf u.name = parties.partyOf v.name

theorem grouping_none : Grouping crypto [] .none where
  listed := rfl
  named _ member := by cases member
  foreign _ _ := rfl
  owner _ _ found := by cases found
  covered _ member := by cases member
  below _ _ found := by cases found
  sound _ member := by cases member
  complete _ _ member := by cases member

theorem SharesTransitive.mono (transitive : SharesTransitive crypto witnesses')
    (more : ∀ w ∈ witnesses, w ∈ witnesses') : SharesTransitive crypto witnesses :=
  fun u left v middle w right => transitive u (more u left) v (more v middle) w (more w right)

theorem Grouping.add_keyless {parties : Parties} (grouping : Grouping crypto witnesses parties)
    (fresh : ∀ u ∈ witnesses, u.name ≠ w.name) (keyless : keyFingerprints crypto w = []) :
    Grouping crypto (witnesses ++ [w]) parties := by
  have new : parties.partyOf w.name = none := grouping.foreign _ fresh
  have old : ∀ u ∈ witnesses ++ [w], ∀ party, parties.partyOf u.name = some party → u ∈ witnesses := by
    intro u member party found
    rcases List.mem_append.mp member with old | last
    · exact old
    · rw [List.mem_singleton.mp last, new] at found
      cases found
  have keyed : ∀ u ∈ witnesses ++ [w], ∀ fp ∈ keyFingerprints crypto u, u ∈ witnesses := by
    intro u member fp key
    rcases List.mem_append.mp member with old | last
    · exact old
    · rw [List.mem_singleton.mp last, keyless] at key
      cases key
  have more : ∀ u ∈ witnesses, u ∈ witnesses ++ [w] := fun _ => List.mem_append_left _
  exact {
    listed := by
      rw [grouping.listed, List.filterMap_append]
      simp [new]
    named := fun u member => by
      rcases List.mem_append.mp member with old | last
      · exact grouping.named u old
      · rw [List.mem_singleton.mp last, new, keyless]
        simp
    foreign := fun name others => grouping.foreign name fun u member => others u (more u member)
    owner := fun fp party found => by
      obtain ⟨u, member, key, own⟩ := grouping.owner fp party found
      exact ⟨u, more u member, key, own⟩
    covered := fun u member fp key => grouping.covered u (keyed u member fp key) fp key
    below := grouping.below
    sound := fun u left v right party first second =>
      (grouping.sound u (old u left party first) v (old v right party second) party first second).mono
        more
    complete := fun transitive u left v right shares => by
      obtain ⟨fp, first, second⟩ := shares
      exact grouping.complete (transitive.mono more) u (keyed u left fp first) v
        (keyed v right fp second) ⟨fp, first, second⟩ }

/-- The party a keyed name joins is that of a name it shares a key with, or a new one. -/
theorem Grouping.partyFor_cases {parties : Parties} (grouping : Grouping crypto witnesses parties)
    (w : KnownWitness) :
    (∃ u ∈ witnesses, Shares crypto u w ∧ parties.partyOf u.name = some (parties.partyFor crypto w) ∧
      ((keyFingerprints crypto w).findSome? parties.fpToParty).isSome) ∨
    ((∀ u ∈ witnesses, ¬Shares crypto u w) ∧ parties.partyFor crypto w = parties.nextParty ∧
      ((keyFingerprints crypto w).findSome? parties.fpToParty).isSome = false) := by
  cases existing : (keyFingerprints crypto w).findSome? parties.fpToParty with
  | some party =>
    obtain ⟨fp, key, found⟩ := List.exists_of_findSome?_eq_some existing
    obtain ⟨u, member, shared, own⟩ := grouping.owner fp party found
    refine .inl ⟨u, member, ⟨fp, shared, key⟩, ?_, rfl⟩
    rw [Parties.partyFor, existing]
    exact own
  | none =>
    refine .inr ⟨fun u member ⟨fp, shared, key⟩ => ?_, ?_, rfl⟩
    · have known := grouping.covered u member fp shared
      rw [List.findSome?_eq_none_iff.mp existing fp key] at known
      cases known
    · rw [Parties.partyFor, existing]
      rfl

theorem Grouping.add_keyed {parties : Parties} (grouping : Grouping crypto witnesses parties)
    (fresh : ∀ u ∈ witnesses, u.name ≠ w.name) (keyed : keyFingerprints crypto w ≠ []) :
    Grouping crypto (witnesses ++ [w]) (parties.add crypto w) := by
  have new : parties.partyOf w.name = none := grouping.foreign _ fresh
  have last : (parties.add crypto w).partyOf w.name = some (parties.partyFor crypto w) := by
    rw [Parties.partyOf_add keyed new, if_pos rfl]
  have old : ∀ u ∈ witnesses, (parties.add crypto w).partyOf u.name = parties.partyOf u.name := by
    intro u member
    rw [Parties.partyOf_add keyed new, if_neg (fresh u member)]
  have more : ∀ u ∈ witnesses, u ∈ witnesses ++ [w] := fun _ => List.mem_append_left _
  have own : w ∈ witnesses ++ [w] := List.mem_append_right _ (List.mem_singleton_self w)
  have found : ∀ fp, (parties.add crypto w).fpToParty fp =
      if fp ∈ keyFingerprints crypto w then some (parties.partyFor crypto w)
      else parties.fpToParty fp := by
    intro fp
    rw [Parties.add_keyed keyed]
  -- a name that shares the new party is connected to the new name
  have joins : ∀ u ∈ witnesses, parties.partyOf u.name = some (parties.partyFor crypto w) →
      Connected crypto (witnesses ++ [w]) u w := by
    intro u member same
    rcases grouping.partyFor_cases w with ⟨v, listed, shares, party, -⟩ | ⟨-, next, -⟩
    · have linked := grouping.sound u member v listed _ same party
      exact (linked.mono more).trans _ _ _ (.rel _ _ ⟨more v listed, own, shares⟩)
    · have lower := grouping.below _ _ same
      omega
  have shared : SharesTransitive crypto (witnesses ++ [w]) → ∀ u ∈ witnesses, Shares crypto u w →
      parties.partyOf u.name = some (parties.partyFor crypto w) := by
    intro transitive u member shares
    rcases grouping.partyFor_cases w with ⟨v, listed, shares', party, -⟩ | ⟨apart, -, -⟩
    · rw [← party]
      exact grouping.complete (transitive.mono more) u member v listed
        (transitive u (more u member) w own v (more v listed) shares shares'.symm)
    · exact absurd shares (apart u member)
  exact {
    listed := by
      have tail : [w].filterMap (fun u => (parties.add crypto w).partyOf u.name) =
          [parties.partyFor crypto w] := by simp [last]
      have head : witnesses.filterMap (fun u => (parties.add crypto w).partyOf u.name) =
          witnesses.filterMap fun u => parties.partyOf u.name := List.filterMap_congr old
      rw [List.filterMap_append, tail, head, ← grouping.listed, Parties.add_keyed keyed, List.map_append]
      rfl
    named := fun u member => by
      rcases List.mem_append.mp member with listed | new
      · rw [old u listed]
        exact grouping.named u listed
      · rw [List.mem_singleton.mp new, last]
        exact ⟨fun _ => keyed, fun _ => rfl⟩
    foreign := fun name others => by
      rw [Parties.partyOf_add keyed new, if_neg (others w own).symm]
      exact grouping.foreign name fun u member => others u (more u member)
    owner := fun fp party known => by
      rw [found] at known
      split_ifs at known with key
      · cases known
        exact ⟨w, own, key, last⟩
      · obtain ⟨u, member, key, known⟩ := grouping.owner fp party known
        exact ⟨u, more u member, key, (old u member).trans known⟩
    covered := fun u member fp key => by
      rw [found]
      split_ifs with shared
      · rfl
      · rcases List.mem_append.mp member with listed | new
        · exact grouping.covered u listed fp key
        · rw [List.mem_singleton.mp new] at key
          exact absurd key shared
    below := fun name party known => by
      have grown : parties.nextParty ≤ (parties.add crypto w).nextParty ∧
          parties.partyFor crypto w < (parties.add crypto w).nextParty := by
        rw [Parties.add_keyed keyed]
        rcases grouping.partyFor_cases w with ⟨u, member, -, known, joined⟩ | ⟨-, next, alone⟩
        · rw [if_pos joined]
          exact ⟨le_rfl, grouping.below _ _ known⟩
        · rw [if_neg (by simp [alone]), next]
          exact ⟨Nat.le_succ _, Nat.lt_succ_self _⟩
      rw [Parties.partyOf_add keyed new] at known
      split_ifs at known with mine
      · cases known
        exact grown.2
      · exact (grouping.below name party known).trans_le grown.1
    sound := fun u left v right party first second => by
      rcases List.mem_append.mp left with left | left <;> rcases List.mem_append.mp right with right | right
      · rw [old u left] at first
        rw [old v right] at second
        exact (grouping.sound u left v right party first second).mono more
      · rw [List.mem_singleton.mp right] at second ⊢
        rw [last] at second
        exact joins u left ((old u left).symm.trans (first.trans second.symm))
      · rw [List.mem_singleton.mp left] at first ⊢
        rw [last] at first
        exact (joins v right ((old v right).symm.trans (second.trans first.symm))).symm _ _
      · rw [List.mem_singleton.mp left, List.mem_singleton.mp right]
        exact .refl w
    complete := fun transitive u left v right shares => by
      rcases List.mem_append.mp left with left | left <;> rcases List.mem_append.mp right with right | right
      · rw [old u left, old v right]
        exact grouping.complete (transitive.mono more) u left v right shares
      · rw [List.mem_singleton.mp right] at shares ⊢
        rw [last, old u left]
        exact shared transitive u left shares
      · rw [List.mem_singleton.mp left] at shares ⊢
        rw [last, old v right]
        exact (shared transitive v right shares.symm).symm
      · rw [List.mem_singleton.mp left, List.mem_singleton.mp right] }

/-- The table of a list of distinct names. -/
theorem grouping_of_nodup (crypto : Crypto) {witnesses : List KnownWitness}
    (distinct : (witnesses.map KnownWitness.name).Nodup) :
    Grouping crypto witnesses (groupParties crypto witnesses) := by
  induction witnesses using List.reverseRecOn with
  | nil => exact grouping_none
  | append_singleton witnesses w ih =>
    rw [List.map_append, List.nodup_append] at distinct
    obtain ⟨earlier, -, apart⟩ := distinct
    have fresh : ∀ u ∈ witnesses, u.name ≠ w.name := fun u member =>
      apart _ (List.mem_map_of_mem member) _ (List.mem_singleton_self _)
    rw [groupParties_append]
    by_cases keyed : keyFingerprints crypto w = []
    · rw [Parties.add_keyless keyed]
      exact (ih earlier).add_keyless fresh keyed
    · exact (ih earlier).add_keyed fresh keyed

end Parties
end Vaduno.Transparency
