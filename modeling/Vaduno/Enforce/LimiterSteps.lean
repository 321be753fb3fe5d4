import Vaduno.Enforce.SpendLimiter
import Vaduno.Enforce.StoreSteps

/-! One in-memory limiter shared by any number of callers: what its operations do to the record of an
id, and how it answers. -/
namespace Vaduno.Enforce
open Ecma

namespace MemorySpendLimiter
variable (l : MemorySpendLimiter)

theorem byId_commit (reservationId key : JsString) : (l.commit reservationId).byId key =
    if key = reservationId then (l.byId key).map fun r => { r with state := .committed }
    else l.byId key := by
  rcases l.commit_cases reservationId with ⟨absent, unchanged⟩ | ⟨r, found, settled⟩
  · rw [unchanged]
    split_ifs with same
    · rw [same, absent]
      rfl
    · rfl
  · have updated : (l.commit reservationId).byId = Function.update l.byId r.reservationId
        (some { r with state := .committed }) := congrArg SpendMaps.byId settled
    obtain rfl := l.indexed.id_of_byId found
    rw [updated, Function.update_apply]
    split_ifs with same
    · rw [same, found]
      rfl
    · rfl

theorem byId_release (reservationId key : JsString) : (l.release reservationId).byId key =
    if key = reservationId then (l.byId key).filter (·.state = .committed) else l.byId key := by
  rcases l.release_cases reservationId with ⟨kept, unchanged⟩ | ⟨r, found, reserved, removed⟩
  · rw [unchanged]
    split_ifs with same
    · subst same
      cases found : l.byId key with
      | none => rfl
      | some r =>
        rw [Option.filter_some, if_pos (decide_eq_true (kept r found))]
    · rfl
  · have updated : (l.release reservationId).byId = Function.update l.byId r.reservationId none :=
      congrArg SpendMaps.byId removed
    rw [updated, l.indexed.id_of_byId found, Function.update_apply]
    split_ifs with same
    · rw [same, found]
      exact (Option.filter_eq_none_iff.mpr fun q member => by
        cases member
        simp [reserved]).symm
    · rfl

/-- What an answered reservation says about the record of its id. -/
theorem reserve_answer {request : ReserveRequest}
    (answered : (l.reserve request).1 = .ok (.ok reservationId replayed state)) :
    reservationId = request.reservationId ∧
      (replayed = false ∧ state = none ∧ l.byId request.reservationId = none ∧
          (l.reserve request).2.toSpendMaps = l.insert (record request) ∨
        replayed = true ∧ (l.reserve request).2 = l ∧
          ∃ r, l.byId request.reservationId = some r ∧ state = some r.state) := by
  unfold reserve at answered ⊢
  split at answered
  · rename_i r found
    cases answered
    exact ⟨rfl, .inr ⟨rfl, rfl, r, found, rfl⟩⟩
  · rename_i absent
    dsimp only at answered ⊢
    split at answered
    · cases answered
    · cases answered
    · cases answered
      exact ⟨rfl, .inl ⟨rfl, rfl, absent, rfl⟩⟩

theorem byId_reserve_of_some {request : ReserveRequest} (found : l.byId key = some r) :
    (l.reserve request).2.byId key = some r := by
  rcases l.reserve_cases request with ⟨unchanged, -⟩ | ⟨absent, -, -, inserted⟩
  · rw [unchanged]
    exact found
  · have other : key ≠ request.reservationId := by
      rintro rfl
      rw [absent] at found
      cases found
    have updated : (l.reserve request).2.byId = Function.update l.byId request.reservationId
        (some (record request)) := congrArg SpendMaps.byId inserted
    rw [updated, Function.update_of_ne other]
    exact found

end MemorySpendLimiter

variable {ι : Type}

/-- How the limiter answers, each operation failing or not, applied or not. Nothing is assumed about
the answers to operations on anything else. -/
def LimiterAnswers : Async.Answers Op.Answer MemorySpendLimiter ι
  | l, _, .reserve request, ans, l' => Fallibly l (l.reserve request).2 (l.reserve request).1 ans l'
  | l, _, .commitSpend reservationId, ans, l' =>
    Fallibly l (l.commit reservationId) (.ok ()) ans l'
  | l, _, .releaseSpend reservationId, ans, l' =>
    Fallibly l (l.release reservationId) (.ok ()) ans l'
  | l, _, _, _, l' => l' = l

/-- How a limiter answers that never fails. -/
def LimiterWorks : Async.Answers Op.Answer MemorySpendLimiter ι
  | l, _, .reserve request, ans, l' => ans = (l.reserve request).1 ∧ l' = (l.reserve request).2
  | l, _, .commitSpend reservationId, ans, l' => ans = .ok () ∧ l' = l.commit reservationId
  | l, _, .releaseSpend reservationId, ans, l' => ans = .ok () ∧ l' = l.release reservationId
  | l, _, _, _, l' => l' = l

/-- The record of a request is held, in one state or the other. -/
def Kept (l : MemorySpendLimiter) (request : ReserveRequest) : Prop :=
  ∃ state, l.byId request.reservationId = some { MemorySpendLimiter.record request with state }

variable {l l' : MemorySpendLimiter} {request : ReserveRequest}

theorem Kept.reserve (kept : Kept l request) (other : ReserveRequest) :
    Kept (l.reserve other).2 request := by
  obtain ⟨state, found⟩ := kept
  exact ⟨state, l.byId_reserve_of_some found⟩

theorem Kept.commit (kept : Kept l request) (reservationId : JsString) :
    Kept (l.commit reservationId) request := by
  obtain ⟨state, found⟩ := kept
  unfold Kept
  rw [l.byId_commit]
  split_ifs
  · exact ⟨.committed, by rw [found]; rfl⟩
  · exact ⟨state, found⟩

theorem Kept.release (kept : Kept l request) (other : request.reservationId ≠ reservationId) :
    Kept (l.release reservationId) request := by
  unfold Kept
  rw [l.byId_release, if_neg other]
  exact kept

end Vaduno.Enforce
