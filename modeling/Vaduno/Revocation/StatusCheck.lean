import Vaduno.Revocation.StatusList
import Vaduno.Sample

/-! The check of a party that does not own the registry: fetch the signed list, verify it, read the
bit of the mandate. The check remembers the newest list it verified, its floor, and answers on no
list below it. -/
namespace Vaduno.Revocation
open Ecma Ledger

/-- What a check is configured with; `none` where the option is left out. Where the options carry no
clock and no persistence hook of their own, the defaults are ones. -/
structure StatusListCheckOptions where
  publicKeyPem : JsString
  /-- The status-list index of an intent's mandate. -/
  indexFor : PaymentIntent → Throwing (Option Number)
  expectedListId : Option JsString
  expectedIssuer : Option JsString
  expectedPurpose : Option StatusPurpose
  rejectRollback : Option Bool
  initialVersionFloor : Option Number

/-- What a fetch comes to. -/
inductive Fetched
  | failed (thrown : Thrown)
  /-- `null` or `undefined`. -/
  | missing
  /-- A value that is no object and has no properties of a list. -/
  | scalar
  | list (credential : StatusListCredential)

/-- The rollback floor: the version of the newest verified list, and the encoded bits of the list
that set it. -/
structure Floor where
  highestVersion : Number
  floorContent : Option JsString

/-- `===` on numbers. -/
def strictEquals (a b : Number) : Bool := !a.isNaN && a = b

def Floor.initial (opts : StatusListCheckOptions) : Floor :=
  ⟨opts.initialVersionFloor.getD (-1), none⟩

def refuse (code message : JsString) : Throwing RevocationVerdict := .ok (.refused code message)

/-- The verdict that a status check is passed on as. -/
def verdictOf (check : StatusCheck) : RevocationVerdict :=
  if check.valid then .allowed
  else .refused (if check.revoked then encode "MANDATE_REVOKED"
    else encode "STATUS_" ++ check.code.text) check.message

namespace StatusListCheckOptions
variable (opts : StatusListCheckOptions)

def checkOptions : CheckOptions where
  publicKeyPem := opts.publicKeyPem
  expectedPurpose := opts.expectedPurpose.getD .revocation
  expectedListId := opts.expectedListId
  expectedIssuer := opts.expectedIssuer

/-- What a call does before its fetch: it answers, or it awaits the list to read an index in. -/
def startCheck (intent : PaymentIntent) : Throwing RevocationVerdict ⊕ Number :=
  match opts.indexFor intent with
  | .error err => .inl (.error err)
  | .ok none => .inl (refuse "NO_STATUS_INDEX"
      "intent's mandate carries no status list index — status is unknown (fail closed)")
  | .ok (some index) => .inr index

/-- The refusal of a list that the floor rules out, if it does. -/
def rollback (floor : Floor) (credential : StatusListCredential) :
    Option (Throwing RevocationVerdict) :=
  if opts.rejectRollback.getD true then
    if credential.version < floor.highestVersion then
      some (refuse "STATUS_LIST_ROLLBACK" ("status list version " ++ credential.version.toText ++
        " is older than " ++ floor.highestVersion.toText ++
        " already seen (replay of a pre-revocation snapshot)"))
    else if strictEquals credential.version floor.highestVersion &&
        floor.floorContent.any (credential.encodedList ≠ ·) then
      some (refuse "STATUS_LIST_ROLLBACK" ("a DIFFERENT status list was served at the same version (" ++
        credential.version.toText ++ ") — versions must strictly increase"))
    else none
  else none

/-- What a call does once its fetch has settled, in one go: `recorded` is what `onFloorAdvance` comes
to if it is called. -/
def finishCheck (verifier : Verifier) (floor : Floor) (index : Number) (fetched : Fetched)
    (nowMs : Number) (recorded : Throwing Unit) : Floor × Throwing RevocationVerdict :=
  match fetched with
  | .failed err => (floor, do
      refuse "STATUS_RETRIEVAL_ERROR" ("could not retrieve the status list (fail closed): " ++
        (← errText err)))
  | .missing =>
    -- reading the version throws, outside of every `try`
    if opts.rejectRollback.getD true then (floor, .error .typeError)
    else (floor, refuse "STATUS_MALFORMED" "status list credential is missing")
  | .scalar => (floor, refuse "STATUS_MALFORMED" "status list credential is missing")
  | .list credential =>
    match opts.rollback floor credential with
    | some refusal => (floor, refusal)
    | none =>
      match checkStatus verifier credential index opts.checkOptions nowMs with
      | .error err => (floor, .error err)
      | .ok check =>
        if check.code = .ok && decide (floor.highestVersion ≤ credential.version) then
          (⟨credential.version, some credential.encodedList⟩, do
            recorded
            return verdictOf check)
        else (floor, .ok (verdictOf check))

end StatusListCheckOptions

/-! ### Runs

Calls overlap in their fetches only. An event is a call that starts, or a fetch that settles for one
of the calls that wait, in any order. -/

inductive CheckEvent
  | call (intent : PaymentIntent)
  | settle (waiter : ℕ) (fetched : Fetched) (nowMs : Number) (recorded : Throwing Unit)

/-- What a call read its bit in. -/
structure Reading where
  index : Number
  fetched : Fetched
  nowMs : Number

/-- A call that has settled, after a fetch or without one. -/
structure CheckAnswer where
  reading : Option Reading
  verdict : Throwing RevocationVerdict

/-- One instance of the check: its floor, the index that each waiting call will read, and what calls
have answered, in answer order. -/
structure CheckState where
  floor : Floor
  waiting : List Number
  answers : List CheckAnswer

section Run
variable (verifier : Verifier) (opts : StatusListCheckOptions)

def CheckState.step (s : CheckState) : CheckEvent → CheckState
  | .call intent =>
    match opts.startCheck intent with
    | .inl verdict => { s with answers := s.answers ++ [⟨none, verdict⟩] }
    | .inr index => { s with waiting := s.waiting ++ [index] }
  | .settle waiter fetched nowMs recorded =>
    match s.waiting[waiter]? with
    | none => s
    | some index =>
      let outcome := opts.finishCheck verifier s.floor index fetched nowMs recorded
      ⟨outcome.1, s.waiting.eraseIdx waiter,
        s.answers ++ [⟨some ⟨index, fetched, nowMs⟩, outcome.2⟩]⟩

def CheckState.initial : CheckState := ⟨.initial opts, [], []⟩

def CheckState.run (s : CheckState) (events : List CheckEvent) : CheckState :=
  events.foldl (CheckState.step verifier opts) s

end Run

/-! ### What an accepted list has stood -/

/-- An answer that rests on what a list says: the mandate is allowed or it is revoked. -/
def Rests (verdict : Throwing RevocationVerdict) : Prop :=
  verdict = .ok .allowed ∨ ∃ message, verdict = .ok (.refused "MANDATE_REVOKED" message)

/-- The list an answer rests on. -/
inductive CheckAnswer.AcceptedOn : CheckAnswer → StatusListCredential → Prop
  | intro {index nowMs verdict credential} (rests : Rests verdict) :
    AcceptedOn ⟨some ⟨index, .list credential, nowMs⟩, verdict⟩ credential

/-- Everything that a status check asks of a list: its signature, which list it is, when it holds and
how it is encoded. -/
structure Verified (verifier : Verifier) (opts : CheckOptions) (credential : StatusListCredential)
    (nowMs : Number) (bits : Bitstring) : Prop where
  signed : signatureOk verifier credential opts.publicKeyPem = true
  purpose : credential.statusPurpose = opts.expectedPurpose
  listId : ∀ id, opts.expectedListId = some id → credential.id = id
  issuer : ∀ issuer, opts.expectedIssuer = some issuer → credential.issuer = issuer
  parsed : (verifier.dateParse credential.validFrom).isNaN = false ∧
    (verifier.dateParse credential.validUntil).isNaN = false
  ordered : ¬verifier.dateParse credential.validUntil ≤ verifier.dateParse credential.validFrom
  begun : ¬nowMs < verifier.dateParse credential.validFrom
  fresh : ¬verifier.dateParse credential.validUntil ≤ nowMs
  decoded : Bitstring.decode verifier.zlib credential.encodedList = .ok bits
  declared : ((bits.length : ℤ) : Number) = credential.entries
  minimum : minimumEntries ≤ bits.length

/-- A check that found nothing out about the entry. -/
structure Unknown (check : StatusCheck) : Prop where
  valid : check.valid = false
  revoked : check.revoked = false
  code : check.code ≠ .ok

/-- A check fails at a guard, or goes on to what comes after it. -/
theorem passed {p : Prop} [Decidable p] {code : StatusCheckCode} {message : JsString}
    {rest : Throwing StatusCheck}
    (checked : (if p then failCheck code message else rest) = .ok check)
    (other : code ≠ .ok := by decide) : Unknown check ∨ ¬p ∧ rest = .ok check := by
  split at checked
  · cases checked
    exact .inl ⟨rfl, rfl, other⟩
  · exact .inr ⟨‹¬p›, checked⟩

/-- A check whose message is made out of an exception. -/
theorem failed_text {err : Thrown} {message : JsString → StatusCheck}
    (checked : (do return message (← errText err) : Throwing StatusCheck) = .ok check)
    (unknown : ∀ text, Unknown (message text)) : Unknown check := by
  cases text : errText err with
  | error thrown => rw [text] at checked; cases checked
  | ok text' =>
    rw [text] at checked
    cases checked
    exact unknown text'

/-- What a status check says of an entry: nothing, or what the bit of a verified list says. -/
inductive Checked (verifier : Verifier) (credential : StatusListCredential) (index : Number)
    (opts : CheckOptions) (nowMs : Number) (check : StatusCheck) : Prop
  | unknown (unknown : Unknown check)
  | known {bits} (verified : Verified verifier opts credential nowMs bits)
    (got : bits.get index = .ok check.revoked) (valid : check.valid = !check.revoked)
    (code : check.code = .ok)

theorem readEntry_cases {credential : StatusListCredential} {bits : Bitstring} {index : Number}
    (read : readEntry credential bits index = .ok check) : Unknown check ∨
      bits.get index = .ok check.revoked ∧ check.valid = (!check.revoked) ∧ check.code = .ok := by
  rw [readEntry] at read
  cases got : bits.get index with
  | error err =>
    rw [got] at read
    exact .inl (failed_text read fun text => ⟨rfl, rfl, nofun⟩)
  | ok revoked =>
    rw [got] at read
    cases revoked <;> · cases read; exact .inr ⟨rfl, rfl, rfl⟩

theorem checkStatus_cases {verifier : Verifier} {credential : StatusListCredential}
    {index : Number} {opts : CheckOptions} {nowMs : Number}
    (checked : checkStatus verifier credential index opts nowMs = .ok check) :
    Checked verifier credential index opts nowMs check := by
  unfold checkStatus at checked
  obtain failed | ⟨signed, checked⟩ := passed checked
  · exact .unknown failed
  obtain failed | ⟨purpose, checked⟩ := passed checked
  · exact .unknown failed
  obtain failed | ⟨listId, checked⟩ := passed checked
  · exact .unknown failed
  obtain failed | ⟨issuer, checked⟩ := passed checked
  · exact .unknown failed
  dsimp only at checked
  obtain failed | ⟨parsed, checked⟩ := passed checked
  · exact .unknown failed
  obtain failed | ⟨ordered, checked⟩ := passed checked
  · exact .unknown failed
  obtain failed | ⟨begun, checked⟩ := passed checked
  · exact .unknown failed
  obtain failed | ⟨fresh, checked⟩ := passed checked
  · exact .unknown failed
  cases decoded : Bitstring.decode verifier.zlib credential.encodedList with
  | error err =>
    rw [decoded] at checked
    exact .unknown (failed_text checked fun text => ⟨rfl, rfl, nofun⟩)
  | ok bits =>
    rw [decoded] at checked
    obtain failed | ⟨declared, checked⟩ := passed checked
    · exact .unknown failed
    obtain failed | ⟨minimum, checked⟩ := passed checked
    · exact .unknown failed
    obtain failed | ⟨got, valid, code⟩ := readEntry_cases checked
    · exact .unknown failed
    rw [Bool.or_eq_true, not_or, Bool.not_eq_true, Bool.not_eq_true] at parsed
    have verified : Verified verifier opts credential nowMs bits := {
      signed := by simpa using signed
      purpose := not_not.mp purpose
      listId := fun id pinned => by simpa [pinned] using listId
      issuer := fun name pinned => by simpa [pinned] using issuer
      parsed := parsed.symm
      ordered := ordered
      begun := begun
      fresh := fresh
      decoded := decoded
      declared := not_not.mp declared
      minimum := not_lt.mp minimum }
    exact .known verified got valid code

/-- A verified list is read, whatever its bit says. -/
theorem Verified.checkStatus {verifier : Verifier} {opts : CheckOptions}
    {credential : StatusListCredential} {nowMs : Number} {bits : Bitstring} {index : Number}
    (verified : Verified verifier opts credential nowMs bits) (got : bits.get index = .ok revoked) :
    ∃ message, checkStatus verifier credential index opts nowMs =
      .ok ⟨!revoked, revoked, .ok, message⟩ := by
  have listId : ¬opts.expectedListId.any (credential.id ≠ ·) := by
    cases pinned : opts.expectedListId <;> simp_all [verified.listId]
  have issuer : ¬opts.expectedIssuer.any (credential.issuer ≠ ·) := by
    cases pinned : opts.expectedIssuer <;> simp_all [verified.issuer]
  unfold Revocation.checkStatus
  rw [if_neg (by simp [verified.signed]), if_neg (not_not.mpr verified.purpose), if_neg listId,
    if_neg issuer]
  dsimp only
  rw [if_neg (by simp [verified.parsed]), if_neg verified.ordered, if_neg verified.begun,
    if_neg verified.fresh, verified.decoded]
  dsimp only
  rw [if_neg (not_not.mpr verified.declared), if_neg (not_lt.mpr verified.minimum), readEntry, got]
  cases revoked <;> exact ⟨_, rfl⟩

/-- A version that was signed is a finite number. -/
theorem Verified.version_isFinite {verifier : Verifier} {opts : CheckOptions}
    {credential : StatusListCredential} {nowMs : Number} {bits : Bitstring}
    (verified : Verified verifier opts credential nowMs bits) :
    credential.version.isFinite = true := by
  have signed := verified.signed
  rw [signatureOk] at signed
  cases written : payload credential.toUnsignedList with
  | error err => rw [written] at signed; cases signed
  | ok bytes =>
    rw [payload] at written
    cases text : canonicalJson credential.toUnsignedList.json with
    | error err => rw [text] at written; cases written
    | ok json =>
      refine isFinite_of_canonicalJson "version" text ?_
      simp

/-! ### One call -/

theorem refuse_not_rests {code message : JsString} (other : code ≠ "MANDATE_REVOKED") :
    ¬Rests (refuse code message) := by
  rintro (allowed | ⟨_, revoked⟩)
  · cases allowed
  · cases revoked
    exact other rfl

theorem error_not_rests {err : Thrown} : ¬Rests (.error err) := by
  rintro (allowed | ⟨_, revoked⟩)
  · cases allowed
  · cases revoked

/-- What a call has done once its fetch has settled: it answered without the list and left the floor,
or it read its bit in a verified list that stood the floor, which is the new floor. -/
inductive Finished (verifier : Verifier) (opts : StatusListCheckOptions) (floor : Floor)
    (index : Number) (fetched : Fetched) (nowMs : Number) : Floor × Throwing RevocationVerdict → Prop
  | refused {verdict} (rests : ¬Rests verdict) :
    Finished verifier opts floor index fetched nowMs (floor, verdict)
  | read {credential bits check next verdict} (listed : fetched = .list credential)
    (held : opts.rollback floor credential = none)
    (verified : Verified verifier opts.checkOptions credential nowMs bits)
    (got : bits.get index = .ok check.revoked) (valid : check.valid = !check.revoked)
    (moved : next = ⟨credential.version, some credential.encodedList⟩ ∨
      next = floor ∧ ¬floor.highestVersion ≤ credential.version)
    (rested : Rests verdict → verdict = .ok (verdictOf check)) :
    Finished verifier opts floor index fetched nowMs (next, verdict)

/-- A code that is passed on for a check that found nothing out is not the one of a revoked
mandate. -/
theorem Unknown.not_rests (unknown : Unknown check) : ¬Rests (.ok (verdictOf check)) := by
  rw [verdictOf, unknown.valid, unknown.revoked]
  refine refuse_not_rests ?_
  intro same
  have first : (encode "STATUS_" ++ check.code.text).head? = some 83 := rfl
  rw [if_neg (by decide)] at same
  rw [same] at first
  cases first

theorem rollback_not_rests {opts : StatusListCheckOptions} {floor : Floor}
    {credential : StatusListCredential}
    (refused : opts.rollback floor credential = some verdict) : ¬Rests verdict := by
  rw [StatusListCheckOptions.rollback] at refused
  split at refused
  · split at refused
    · cases refused
      exact refuse_not_rests (by decide)
    · split at refused
      · cases refused
        exact refuse_not_rests (by decide)
      · cases refused
  · cases refused

theorem finishCheck_finished (verifier : Verifier) (opts : StatusListCheckOptions) (floor : Floor)
    (index : Number) (fetched : Fetched) (nowMs : Number) (recorded : Throwing Unit) :
    Finished verifier opts floor index fetched nowMs
      (opts.finishCheck verifier floor index fetched nowMs recorded) := by
  cases fetched with
  | failed err =>
    refine .refused ?_
    cases errText err with
    | error thrown => exact error_not_rests
    | ok text => exact refuse_not_rests (by decide)
  | missing =>
    rw [StatusListCheckOptions.finishCheck]
    split
    · exact .refused error_not_rests
    · exact .refused (refuse_not_rests (by decide))
  | scalar => exact .refused (refuse_not_rests (by decide))
  | list credential =>
    rw [StatusListCheckOptions.finishCheck]
    cases held : opts.rollback floor credential with
    | some refusal => exact .refused (rollback_not_rests held)
    | none =>
      cases checked : checkStatus verifier credential index opts.checkOptions nowMs with
      | error err => exact .refused error_not_rests
      | ok check =>
        cases checkStatus_cases checked with
        | unknown unknown =>
          simp only [unknown.code, decide_false, Bool.false_and, Bool.false_eq_true, if_false]
          exact .refused unknown.not_rests
        | known verified got valid code =>
          simp only [code, decide_true, Bool.true_and, decide_eq_true_eq]
          split
          · refine .read rfl held verified got valid (.inl rfl) fun rests => ?_
            cases recorded with
            | error err => exact absurd rests error_not_rests
            | ok done => rfl
          · rename_i below
            exact .read rfl held verified got valid (.inr ⟨rfl, below⟩) fun _ => rfl

/-! ### Never below the floor -/

section NeverBack
variable {verifier : Verifier} {opts : StatusListCheckOptions} {floor : Floor}

theorem rollback_none {credential : StatusListCredential} (on : opts.rejectRollback ≠ some false)
    (held : opts.rollback floor credential = none) :
    ¬credential.version < floor.highestVersion ∧
      (strictEquals credential.version floor.highestVersion = true →
        ∀ content, floor.floorContent = some content → credential.encodedList = content) := by
  have rejects : opts.rejectRollback.getD true = true := by
    cases given : opts.rejectRollback with
    | none => rfl
    | some reject => cases reject <;> simp_all
  rw [StatusListCheckOptions.rollback, if_pos rejects] at held
  split at held
  · cases held
  · rename_i older
    split at held
    · cases held
    · rename_i other
      refine ⟨older, fun same content kept => ?_⟩
      simpa [same, kept] using other

/-- What one call does to a floor that is a number: it never lowers it, it keeps the content of a
version it keeps, and an answer that rests on a list makes that list the floor. -/
structure Raised (floor : Floor) (fetched : Fetched) (outcome : Floor × Throwing RevocationVerdict) :
    Prop where
  number : outcome.1.highestVersion.isNaN = false
  raised : floor.highestVersion ≤ outcome.1.highestVersion
  content : outcome.1.highestVersion = floor.highestVersion →
    ∀ content, floor.floorContent = some content → outcome.1.floorContent = some content
  rested : Rests outcome.2 → ∃ credential, fetched = .list credential ∧
    outcome.1 = ⟨credential.version, some credential.encodedList⟩

theorem Finished.raised {index : Number} {fetched : Fetched} {nowMs : Number}
    {outcome : Floor × Throwing RevocationVerdict}
    (finished : Finished verifier opts floor index fetched nowMs outcome)
    (on : opts.rejectRollback ≠ some false) (number : floor.highestVersion.isNaN = false) :
    Raised floor fetched outcome := by
  cases finished with
  | refused rests => exact ⟨number, Number.le_refl number, fun _ _ kept => kept, fun own => absurd own rests⟩
  | @read credential bits check next verdict listed held verified got valid moved rested =>
    obtain ⟨above, same⟩ := rollback_none on held
    have finite := Number.isNaN_of_isFinite verified.version_isFinite
    have raised := Number.le_of_not_lt finite number above
    obtain rfl | ⟨-, below⟩ := moved
    · refine ⟨finite, raised, fun equal content kept => ?_, fun _ => ⟨credential, listed, rfl⟩⟩
      have equals : strictEquals credential.version floor.highestVersion = true := by
        rw [strictEquals, finite, Bool.not_false, Bool.true_and, decide_eq_true_eq]
        exact equal
      rw [same equals content kept]
    · exact absurd raised below

/-- An answer that rests on a list says what the mandate's bit in a verified list says. -/
def Sound (verifier : Verifier) (opts : StatusListCheckOptions) (a : CheckAnswer) : Prop :=
  Rests a.verdict → ∃ index credential nowMs bits check,
    a = ⟨some ⟨index, .list credential, nowMs⟩, .ok (verdictOf check)⟩ ∧
    Verified verifier opts.checkOptions credential nowMs bits ∧
    bits.get index = .ok check.revoked ∧ check.valid = !check.revoked

theorem Finished.sound {index : Number} {fetched : Fetched} {nowMs : Number}
    {outcome : Floor × Throwing RevocationVerdict}
    (finished : Finished verifier opts floor index fetched nowMs outcome) :
    Sound verifier opts ⟨some ⟨index, fetched, nowMs⟩, outcome.2⟩ := by
  cases finished with
  | refused rests => exact fun own => absurd own rests
  | @read credential bits check next verdict listed held verified got valid moved rested =>
    intro own
    refine ⟨index, credential, nowMs, bits, check, ?_, verified, got, valid⟩
    rw [listed]
    exact congrArg _ (rested own)

theorem startCheck_not_rests {intent : PaymentIntent}
    (answered : opts.startCheck intent = .inl verdict) : ¬Rests verdict := by
  rw [StatusListCheckOptions.startCheck] at answered
  split at answered
  · cases answered
    exact error_not_rests
  · cases answered
    exact refuse_not_rests (by decide)
  · cases answered

/-- What an event adds to the answers. -/
inductive Stepped (verifier : Verifier) (opts : StatusListCheckOptions) (s : CheckState) :
    CheckState → Prop
  | silent {waiting} : Stepped verifier opts s { s with waiting := waiting }
  | unread {verdict} (rests : ¬Rests verdict) :
    Stepped verifier opts s { s with answers := s.answers ++ [⟨none, verdict⟩] }
  | settled {waiting index fetched nowMs outcome}
    (finished : Finished verifier opts s.floor index fetched nowMs outcome) :
    Stepped verifier opts s
      ⟨outcome.1, waiting, s.answers ++ [⟨some ⟨index, fetched, nowMs⟩, outcome.2⟩]⟩

theorem CheckState.step_stepped (s : CheckState) (event : CheckEvent) :
    Stepped verifier opts s (s.step verifier opts event) := by
  cases event with
  | call intent =>
    rw [CheckState.step]
    split
    · rename_i verdict answered
      exact .unread (startCheck_not_rests answered)
    · exact .silent
  | settle waiter fetched nowMs recorded =>
    rw [CheckState.step]
    split
    · exact .silent
    · exact .settled (finishCheck_finished verifier opts s.floor _ fetched nowMs recorded)

/-- The invariant rule of the check. -/
theorem CheckState.run_induction {P : CheckState → Prop} {s : CheckState} (holds : P s)
    (keeps : ∀ s s', P s → Stepped verifier opts s s' → P s') (events : List CheckEvent) :
    P (s.run verifier opts events) := by
  induction events generalizing s with
  | nil => exact holds
  | cons event rest ih => exact ih (keeps s _ holds (s.step_stepped event))

theorem forall_sound (events : List CheckEvent) :
    ∀ a ∈ ((CheckState.initial opts).run verifier opts events).answers, Sound verifier opts a := by
  refine CheckState.run_induction (P := fun s => ∀ a ∈ s.answers, Sound verifier opts a)
    (fun a member => by cases member) (fun s s' sound stepped a member => ?_) events
  cases stepped with
  | silent => exact sound a member
  | unread rests =>
    rcases List.mem_append.mp member with earlier | last
    · exact sound a earlier
    · rw [List.mem_singleton.mp last]
      exact fun own => absurd own rests
  | settled finished =>
    rcases List.mem_append.mp member with earlier | last
    · exact sound a earlier
    · rw [List.mem_singleton.mp last]
      exact finished.sound

/-- What ties the floor to the answers so far. -/
structure Kept (opts : StatusListCheckOptions) (s : CheckState) : Prop where
  number : s.floor.highestVersion.isNaN = false
  above : (Floor.initial opts).highestVersion ≤ s.floor.highestVersion
  floored : ∀ a ∈ s.answers, ∀ c, a.AcceptedOn c → (Floor.initial opts).highestVersion ≤ c.version
  below : ∀ a ∈ s.answers, ∀ c, a.AcceptedOn c → c.version ≤ s.floor.highestVersion
  content : ∀ a ∈ s.answers, ∀ c, a.AcceptedOn c → c.version = s.floor.highestVersion →
    s.floor.floorContent = some c.encodedList
  ordered : s.answers.Pairwise fun a b => ∀ c d, a.AcceptedOn c → b.AcceptedOn d →
    c.version ≤ d.version ∧ (c.version = d.version → c.encodedList = d.encodedList)

theorem Kept.push (kept : Kept opts s) (rests : ¬Rests verdict) :
    Kept opts { s with answers := s.answers ++ [⟨reading, verdict⟩] } := by
  have unaccepted : ∀ c, ¬(CheckAnswer.mk reading verdict).AcceptedOn c := by
    rintro c ⟨own⟩
    exact rests own
  have member : ∀ a ∈ s.answers ++ [⟨reading, verdict⟩], ∀ c, a.AcceptedOn c → a ∈ s.answers := by
    intro a member c accepted
    rcases List.mem_append.mp member with earlier | last
    · exact earlier
    · rw [List.mem_singleton.mp last] at accepted
      exact absurd accepted (unaccepted c)
  exact {
    number := kept.number
    above := kept.above
    floored := fun a held c accepted => kept.floored a (member a held c accepted) c accepted
    below := fun a held c accepted => kept.below a (member a held c accepted) c accepted
    content := fun a held c accepted => kept.content a (member a held c accepted) c accepted
    ordered := by
      refine List.pairwise_append.mpr ⟨kept.ordered, List.pairwise_singleton _ _, ?_⟩
      intro a held b last c d _ accepted
      rw [List.mem_singleton.mp last] at accepted
      exact absurd accepted (unaccepted d) }

/-- Raising the floor keeps what it says of the answers there are. -/
theorem Kept.raise {fetched : Fetched} {outcome : Floor × Throwing RevocationVerdict}
    (waiting : List Number) (kept : Kept opts s) (raised : Raised s.floor fetched outcome) :
    Kept opts ⟨outcome.1, waiting, s.answers⟩ where
  number := raised.number
  above := Number.le_trans kept.above raised.raised
  floored := kept.floored
  below a held c accepted := Number.le_trans (kept.below a held c accepted) raised.raised
  content a held c accepted same := by
    have below := kept.below a held c accepted
    have level : outcome.1.highestVersion = s.floor.highestVersion :=
      Number.le_antisymm (same ▸ below) raised.raised
    exact raised.content level _ (kept.content a held c accepted (same.trans level))
  ordered := kept.ordered

/-- An answer that rests on the list the floor has been raised to. -/
theorem Kept.rest {index nowMs : Number} {credential : StatusListCredential}
    (kept : Kept opts s) (floor : s.floor = ⟨credential.version, some credential.encodedList⟩) :
    Kept opts { s with answers := s.answers ++ [⟨some ⟨index, .list credential, nowMs⟩, verdict⟩] } := by
  have own : ∀ {P : CheckAnswer → StatusListCredential → Prop},
      (∀ a ∈ s.answers, ∀ c, a.AcceptedOn c → P a c) →
      (∀ a, P a credential) →
      ∀ a ∈ s.answers ++ [⟨some ⟨index, .list credential, nowMs⟩, verdict⟩],
        ∀ c, a.AcceptedOn c → P a c := by
    intro P earlier last a member c accepted
    rcases List.mem_append.mp member with held | same
    · exact earlier a held c accepted
    · rw [List.mem_singleton.mp same] at accepted
      cases accepted
      exact last a
  have number := kept.number
  rw [floor] at number
  have here : s.floor.highestVersion = credential.version := by rw [floor]
  exact {
    number := kept.number
    above := kept.above
    floored := own kept.floored fun _ => here ▸ kept.above
    below := own kept.below fun _ => by rw [here]; exact Number.le_refl number
    content := own (P := fun _ c => c.version = s.floor.highestVersion →
      s.floor.floorContent = some c.encodedList) kept.content fun _ _ => by rw [floor]
    ordered := by
      refine List.pairwise_append.mpr ⟨kept.ordered, List.pairwise_singleton _ _, ?_⟩
      intro a held b last c d accepted rested
      rw [List.mem_singleton.mp last] at rested
      cases rested
      refine ⟨here ▸ kept.below a held c accepted, fun same => ?_⟩
      have content := kept.content a held c accepted (same.trans here.symm)
      rw [floor] at content
      exact (Option.some.inj content).symm }

theorem Kept.step {s s' : CheckState} (on : opts.rejectRollback ≠ some false) (kept : Kept opts s)
    (stepped : Stepped verifier opts s s') : Kept opts s' := by
  cases stepped with
  | silent => exact ⟨kept.number, kept.above, kept.floored, kept.below, kept.content, kept.ordered⟩
  | unread rests => exact kept.push rests
  | @settled waiting index fetched nowMs outcome finished =>
    have raised := finished.raised on kept.number
    have next := kept.raise waiting raised
    by_cases rests : Rests outcome.2
    · obtain ⟨credential, listed, floor⟩ := raised.rested rests
      subst listed
      exact next.rest floor
    · exact next.push rests

/-- A floor of NaN rules no list out and never moves. -/
theorem finishCheck_nan (opts : StatusListCheckOptions) {credential : StatusListCredential}
    {index nowMs : Number}
    {recorded : Throwing Unit} {content : Option JsString}
    (checked : checkStatus verifier credential index opts.checkOptions nowMs = .ok check) :
    opts.finishCheck verifier ⟨.nan, content⟩ index (.list credential) nowMs recorded =
      (⟨.nan, content⟩, .ok (verdictOf check)) := by
  have newer : ¬credential.version < .nan := by
    cases credential.version <;> exact Bool.false_ne_true
  have other : strictEquals credential.version .nan = false := by
    cases credential.version <;> rfl
  have held : opts.rollback ⟨.nan, content⟩ credential = none := by
    rw [StatusListCheckOptions.rollback]
    simp only [newer, other, Bool.false_and, Bool.false_eq_true, if_false, ite_self]
  have unmoved : (check.code = .ok && decide (Number.nan ≤ credential.version)) = false := by
    rw [Bool.and_eq_false_iff]
    exact .inr rfl
  rw [StatusListCheckOptions.finishCheck, held]
  simp only [checked, unmoved, Bool.false_eq_true, if_false]

/-- A call on a list that was checked, from a floor of NaN. -/
theorem CheckState.step_nan (opts : StatusListCheckOptions) {credential : StatusListCredential}
    {index nowMs : Number} {intent : PaymentIntent} {recorded : Throwing Unit}
    {answers : List CheckAnswer} (indexed : opts.indexFor intent = .ok (some index))
    (checked : checkStatus verifier credential index opts.checkOptions nowMs = .ok check) :
    ((CheckState.mk ⟨.nan, none⟩ [] answers).step verifier opts (.call intent)).step verifier opts
        (.settle 0 (.list credential) nowMs recorded) =
      ⟨⟨.nan, none⟩, [], answers ++
        [⟨some ⟨index, .list credential, nowMs⟩, .ok (verdictOf check)⟩]⟩ := by
  have called : (CheckState.mk ⟨.nan, none⟩ [] answers).step verifier opts (.call intent) =
      ⟨⟨.nan, none⟩, [index], answers⟩ := by
    rw [CheckState.step, StatusListCheckOptions.startCheck, indexed]
    rfl
  rw [called]
  change CheckState.mk (opts.finishCheck verifier ⟨.nan, none⟩ index _ nowMs recorded).1 [] _ = _
  rw [finishCheck_nan opts checked]

/-- What a verifier that is never rolled back has answered: it rests only on verified lists, at or
above the initial floor, whose versions never go down and never carry two bit strings; and a list
that revoked a mandate is the last word on it up to its version. -/
structure NeverRolledBack (verifier : Verifier) (opts : StatusListCheckOptions)
    (answers : List CheckAnswer) : Prop where
  failClosed : ∀ a ∈ answers, a.verdict = .ok .allowed → ∃ index credential nowMs bits,
    a.reading = some ⟨index, .list credential, nowMs⟩ ∧
    Verified verifier opts.checkOptions credential nowMs bits ∧ bits.get index = .ok false
  onLists : ∀ a ∈ answers, Rests a.verdict → ∃ c, a.AcceptedOn c
  floored : ∀ a ∈ answers, ∀ c, a.AcceptedOn c →
    ∀ version, opts.initialVersionFloor = some version → version ≤ c.version
  ordered : answers.Pairwise fun a b => ∀ c d, a.AcceptedOn c → b.AcceptedOn d →
    c.version ≤ d.version
  sameBits : answers.Pairwise fun a b => ∀ c d, a.AcceptedOn c → b.AcceptedOn d →
    c.version = d.version → c.encodedList = d.encodedList
  neverAgain : answers.Pairwise fun a b => ∀ c d bits index nowMs, a.AcceptedOn c →
    Bitstring.decode verifier.zlib c.encodedList = .ok bits → bits.get index = .ok true →
    b.reading = some ⟨index, .list d, nowMs⟩ → d.version ≤ c.version → b.verdict ≠ .ok .allowed

theorem verdictOf_allowed (valid : check.valid = !check.revoked)
    (allowed : verdictOf check = .allowed) : check.revoked = false := by
  rw [verdictOf, valid] at allowed
  cases revoked : check.revoked with
  | false => rfl
  | true => rw [revoked] at allowed; cases allowed

theorem Sound.failClosed {a : CheckAnswer} (sound : Sound verifier opts a)
    (allowed : a.verdict = .ok .allowed) : ∃ index credential nowMs bits,
      a.reading = some ⟨index, .list credential, nowMs⟩ ∧
      Verified verifier opts.checkOptions credential nowMs bits ∧ bits.get index = .ok false := by
  obtain ⟨index, credential, nowMs, bits, check, rfl, verified, got, valid⟩ := sound (.inl allowed)
  rw [verdictOf_allowed valid (Except.ok.inj allowed)] at got
  exact ⟨index, credential, nowMs, bits, rfl, verified, got⟩

theorem Sound.onLists {a : CheckAnswer} (sound : Sound verifier opts a) (rests : Rests a.verdict) :
    ∃ c, a.AcceptedOn c := by
  obtain ⟨index, credential, nowMs, bits, check, rfl, -⟩ := sound rests
  exact ⟨credential, .intro rests⟩

theorem Kept.neverRolledBack {s : CheckState} (kept : Kept opts s)
    (sound : ∀ a ∈ s.answers, Sound verifier opts a) :
    NeverRolledBack verifier opts s.answers where
  failClosed a member := (sound a member).failClosed
  onLists a member := (sound a member).onLists
  floored a member c accepted version given := by
    have floored := kept.floored a member c accepted
    rwa [Floor.initial, given] at floored
  ordered := kept.ordered.imp fun relates c d left right => (relates c d left right).1
  sameBits := kept.ordered.imp fun relates c d left right => (relates c d left right).2
  neverAgain := by
    refine kept.ordered.imp_of_mem ?_
    rintro a b - member relates c d bits index nowMs left decoded revoked reading below allowed
    obtain ⟨_, _, _, bits', reading', verified, got⟩ := (sound b member).failClosed allowed
    rw [reading] at reading'
    cases reading'
    have right : b.AcceptedOn d := by
      obtain ⟨read, verdict⟩ := b
      cases reading
      exact .intro (.inl allowed)
    obtain ⟨upward, same⟩ := relates c d left right
    have decoded' := verified.decoded
    rw [← same (Number.le_antisymm upward below), decoded] at decoded'
    cases decoded'
    rw [revoked] at got
    cases got

theorem Kept.initial (number : opts.initialVersionFloor ≠ some .nan) :
    Kept opts (CheckState.initial opts) := by
  have known : (Floor.initial opts).highestVersion.isNaN = false := by
    rw [Floor.initial]
    cases given : opts.initialVersionFloor with
    | none => exact Number.isNaN_of_isFinite (by decide +kernel : (-1 : Number).isFinite = true)
    | some version => cases version <;> simp_all [Number.isNaN]
  refine ⟨known, Number.le_refl known, ?_, ?_, ?_, .nil⟩
  · rintro a held
    cases held
  · rintro a held
    cases held
  · rintro a held
    cases held

/-- With rollbacks rejected, a verifier is never rolled back, whatever it fetches and in whatever
order its calls settle, unless its initial floor is NaN, which no version is below. From that floor
it is as good as never rolled back only until it rests on a first list. -/
theorem never_rolled_back (verifier : Verifier) (opts : StatusListCheckOptions)
    (on : opts.rejectRollback ≠ some false) (events : List CheckEvent) :
    (opts.initialVersionFloor ≠ some .nan → NeverRolledBack verifier opts
      ((CheckState.initial opts).run verifier opts events).answers) ∧
    (opts.initialVersionFloor = some .nan → (NeverRolledBack verifier opts
      ((CheckState.initial opts).run verifier opts events).answers ↔
      ∀ a ∈ ((CheckState.initial opts).run verifier opts events).answers, ¬Rests a.verdict)) := by
  have sound : ∀ a ∈ ((CheckState.initial opts).run verifier opts events).answers,
      Sound verifier opts a := forall_sound events
  refine ⟨fun number => ?_, fun lost => ⟨fun never a member rests => ?_, fun none => ?_⟩⟩
  · have kept : Kept opts ((CheckState.initial opts).run verifier opts events) :=
      CheckState.run_induction (Kept.initial number) (fun s s' kept stepped => kept.step on stepped) events
    exact kept.neverRolledBack sound
  · obtain ⟨c, accepted⟩ := never.onLists a member rests
    have floored := never.floored a member c accepted _ lost
    cases floored
  · have unaccepted : ∀ a ∈ ((CheckState.initial opts).run verifier opts events).answers,
        ∀ c, ¬a.AcceptedOn c := by
      rintro a member c ⟨rests⟩
      exact none _ member rests
    exact {
      failClosed := fun a member => (sound a member).failClosed
      onLists := fun a member => (sound a member).onLists
      floored := fun a member c accepted => absurd accepted (unaccepted a member c)
      ordered := List.pairwise_of_forall_mem_list fun a member _ _ c _ accepted =>
        absurd accepted (unaccepted a member c)
      sameBits := List.pairwise_of_forall_mem_list fun a member _ _ c _ accepted =>
        absurd accepted (unaccepted a member c)
      neverAgain := List.pairwise_of_forall_mem_list fun a member _ _ c _ _ _ _ accepted =>
        absurd accepted (unaccepted a member c) }

end NeverBack

/-! ### From a floor of NaN

An issuer publishes a list that revokes the mandate of index 0, after one that does not. -/
namespace Sample

def issuerPem : JsString :=
  "-----BEGIN PUBLIC KEY-----\nMCowBQYDK2VwAyEA6kpsY+KcUgq+9VB7Ey7F+ZVHdq6+vnuSQh7qaRRG0iw=\n-----END PUBLIC KEY-----\n"

def packed (revoked : Bool) : JsString :=
  if revoked then encode "H4sIAAAAAAAAA-3BIQEAAAACIKc73RkWoAEAAAAAAAAAAAAAAAAAAADeBuRZQ2cAQAAA"
  else encode "H4sIAAAAAAAAA-3BMQEAAADCoPVPbQwfoAAAAAAAAAAAAAAAAAAAAIC3AYbSVKsAQAAA"

def statusList (revoked : Bool) : StatusListCredential where
  id := "l"
  issuer := "i"
  statusPurpose := .revocation
  encodedList := "u" ++ packed revoked
  entries := 131072
  version := if revoked then 2 else 1
  validFrom := "2026-01-01T00:00:00.000Z"
  validUntil := "2027-01-01T00:00:00.000Z"
  signature :=
    if revoked then encode "guTOQGA5MuGP3+j6SNkYG42NFDuPOaorDfPbpHmvoDx18WLZ0j8TnVHUAMKXznNvqUtstbYJgrsNLu7HzvGHDQ=="
    else encode "1jpFORKRhZCaKo4Dg6ejU/oDhX2yi/TN+PkkvYpbs54vtP1OyZbriqkPsg2n8+rgAyMzbx5ZszR2+pHybVMlCw=="

def bits (revoked : Bool) : Bitstring :=
  ⟨(if revoked then 128 else 0) :: List.replicate 16383 0⟩

/-- What the libraries answer on these two lists. -/
def verifier : Verifier where
  zlib := {
    gzipSync := fun bytes => bytes
    gunzipSync := fun bytes =>
      if bytes = Bitstring.ofBase64url (packed true) then .ok (bits true).bytes
      else if bytes = Bitstring.ofBase64url (packed false) then .ok (bits false).bytes
      else .error (.error "incorrect header check") }
  dateParse := Vaduno.Sample.platform.dateParse
  edVerify bytes publicKeyPem signature := .ok (decide (publicKeyPem = issuerPem ∧
    ∃ revoked, (payload (statusList revoked).toUnsignedList).toOption = some bytes ∧
      signature = (statusList revoked).signature))

/-- A verifier for that list whose floor was restored from `initialVersionFloor`. -/
def options (initialVersionFloor : Option Number) : StatusListCheckOptions where
  publicKeyPem := issuerPem
  indexFor _ := .ok (some 0)
  expectedListId := none
  expectedIssuer := none
  expectedPurpose := none
  rejectRollback := none
  initialVersionFloor := initialVersionFloor

theorem lists_known : (∀ revoked, (payload (statusList revoked).toUnsignedList).toOption.isSome ∧
      Bitstring.isBase64url (packed revoked)) ∧
    Bitstring.ofBase64url (packed false) ≠ Bitstring.ofBase64url (packed true) := by
  decide +kernel

theorem length_bits (revoked : Bool) : (bits revoked).length = 131072 := by
  rw [Bitstring.length, bits, List.length_cons, List.length_replicate]

theorem get_bits (revoked : Bool) : (bits revoked).get 0 = .ok revoked := by
  have first : decide ((bits revoked).Has 0) = revoked := by
    have held : (bits revoked).Has 0 ↔ (if revoked then 128 else 0 : UInt8) &&& Bitstring.mask 0 ≠ 0 := by
      constructor
      · rintro ⟨byte, found, set⟩
        cases found
        exact set
      · intro set
        exact ⟨_, rfl, set⟩
    cases revoked with
    | true => exact decide_eq_true (held.mpr (by decide))
    | false => exact decide_eq_false fun set => absurd (held.mp set) (by decide)
  change (bits revoked).get ((0 : ℕ) : ℤ) = _
  rw [Bitstring.get_natCast (by rw [length_bits]; decide) (by rw [length_bits]; decide), first]

theorem dates_known :
    let since := verifier.dateParse "2026-01-01T00:00:00.000Z"
    let till := verifier.dateParse "2027-01-01T00:00:00.000Z"
    (since.isNaN = false ∧ till.isNaN = false) ∧ ¬till ≤ since ∧ ¬1780000000000 < since ∧
      ¬till ≤ 1780000000000 := by
  decide +kernel

theorem verified (floor : Option Number) (revoked : Bool) :
    Verified verifier (options floor).checkOptions (statusList revoked) 1780000000000
      (bits revoked) where
  signed := by
    obtain ⟨bytes, signed⟩ := Option.isSome_iff_exists.mp (lists_known.1 revoked).1
    rw [signatureOk]
    cases text : payload (statusList revoked).toUnsignedList with
    | error err => rw [text] at signed; cases signed
    | ok written => exact decide_eq_true ⟨rfl, revoked, by rw [text]; rfl, rfl⟩
  purpose := rfl
  listId := nofun
  issuer := nofun
  parsed := dates_known.1
  ordered := dates_known.2.1
  begun := dates_known.2.2.1
  fresh := dates_known.2.2.2
  decoded := by
    have inflated : verifier.zlib.gunzipSync (Bitstring.ofBase64url (packed revoked)) =
        .ok (bits revoked).bytes := by
      cases revoked with
      | true =>
        unfold verifier
        dsimp only
        rw [if_pos rfl]
      | false =>
        unfold verifier
        dsimp only
        rw [if_neg lists_known.2, if_pos rfl]
    change Bitstring.decode verifier.zlib (117 :: packed revoked) = _
    rw [Bitstring.decode, if_neg (by decide), if_neg (by simp [lists_known.1]), inflated]
    rfl
  declared := by
    rw [length_bits]
    rfl
  minimum := by
    rw [length_bits]
    decide

/-- The revoking list is fetched first, then an older one is served again. -/
def replay : List CheckEvent :=
  [.call (Vaduno.Sample.intent "i-1"), .settle 0 (.list (statusList true)) 1780000000000 (.ok ()),
    .call (Vaduno.Sample.intent "i-2"), .settle 0 (.list (statusList false)) 1780000000000 (.ok ())]

end Sample

theorem rolled_back_from_nan : ¬NeverRolledBack Sample.verifier (Sample.options (some .nan))
    ((CheckState.initial (Sample.options (some .nan))).run Sample.verifier
      (Sample.options (some .nan)) Sample.replay).answers := by
  obtain ⟨first, revoking⟩ := (Sample.verified (some .nan) true).checkStatus (Sample.get_bits true)
  obtain ⟨second, clear⟩ := (Sample.verified (some .nan) false).checkStatus (Sample.get_bits false)
  have answers : ((CheckState.initial (Sample.options (some .nan))).run Sample.verifier
      (Sample.options (some .nan)) Sample.replay).answers =
      [⟨some ⟨0, .list (Sample.statusList true), 1780000000000⟩,
        .ok (.refused "MANDATE_REVOKED" first)⟩,
        ⟨some ⟨0, .list (Sample.statusList false), 1780000000000⟩, .ok .allowed⟩] := by
    have start : CheckState.initial (Sample.options (some .nan)) = ⟨⟨.nan, none⟩, [], []⟩ := rfl
    rw [start, CheckState.run, Sample.replay, List.foldl_cons, List.foldl_cons,
      CheckState.step_nan _ rfl revoking, List.foldl_cons, List.foldl_cons,
      CheckState.step_nan _ rfl clear]
    rfl
  intro never
  rw [answers] at never
  have again := List.rel_of_pairwise_cons never.neverAgain (List.mem_singleton_self _)
  exact again _ _ _ 0 _ (.intro (.inr ⟨first, rfl⟩)) (Sample.verified (some .nan) true).decoded
    (Sample.get_bits true) rfl (Number.intCast_mono (by decide : (1 : ℤ) ≤ 2)) rfl

theorem never_rolled_back_from_start :
    NeverRolledBack Sample.verifier (Sample.options none)
      ((CheckState.initial (Sample.options none)).run Sample.verifier (Sample.options none)
        Sample.replay).answers :=
  (never_rolled_back Sample.verifier (Sample.options none) (by decide) Sample.replay).1 (by nofun)

end Vaduno.Revocation
