import N8n.Mcp.OAuthService

/-!
# Codes and refresh tokens are used once

The update that consumes a code and the delete that starts a rotation repeat
the test the result depends on, and a value is inserted once only, as random
values do not repeat.
-/

namespace N8n

open OrderedMap

namespace McpOAuth

/-- What an outcome needs of the earlier ones. -/
def Allowed (earlier : List OAuthOutcome) : OAuthOutcome → Prop
  | .codeIssued code _ _ _ => ∀ clientId redirectUri expiresAt,
      .codeIssued code clientId redirectUri expiresAt ∉ earlier
  | .codeConsumed code clientId redirectUri foundAt =>
    (∀ other given found, .codeConsumed code other given found ∉ earlier) ∧
    ∃ issuedFor expiresAt, .codeIssued code clientId issuedFor expiresAt ∈ earlier ∧
      foundAt ≤ expiresAt ∧
      ∀ given, redirectUri = some given → given ≠ "" → given = issuedFor
  | .tokenIssued token _ _ => ∀ clientId expiresAt, .tokenIssued token clientId expiresAt ∉ earlier
  | .tokenExchanged token clientId beganAt =>
    (∀ other began, .tokenExchanged token other began ∉ earlier) ∧
    .tokenRevoked token clientId ∉ earlier ∧
    ∃ expiresAt, .tokenIssued token clientId expiresAt ∈ earlier ∧ beganAt ≤ expiresAt
  | .tokenRevoked token clientId =>
    ∃ expiresAt, .tokenIssued token clientId expiresAt ∈ earlier

/-- A code is consumed and a refresh token exchanged at most once, by the
client it was issued to and before it has expired, a code for the redirect URI
it was issued for and a token before it is revoked. -/
def NoReplay : List OAuthOutcome → Prop
  | [] => True
  | outcome :: earlier => Allowed earlier outcome ∧ NoReplay earlier

section

variable (history : List OAuthOutcome)

def Issued (value : String) : Prop :=
  (∃ clientId redirectUri expiresAt, .codeIssued value clientId redirectUri expiresAt ∈ history) ∨
  ∃ clientId expiresAt, .tokenIssued value clientId expiresAt ∈ history

/-- What a request in progress knows. -/
def PhaseSound (server : McpOAuth) : OAuthPhase → Prop
  | .validatesCode row clientId foundAt _ =>
    .codeIssued row.code clientId row.redirectUri row.expiresAt ∈
      server.history ∧ foundAt ≤ server.now
  | .consumesCode row clientId foundAt redirectUri =>
    .codeIssued row.code clientId row.redirectUri row.expiresAt ∈
      server.history ∧ foundAt ≤ row.expiresAt ∧
      redirectMismatch row redirectUri = false
  | .beginsRotation _ _ beganAt => beganAt ≤ server.now
  | .findsToken _ _ beganAt now => beganAt ≤ now
  | .deletesToken _ _ _ beganAt now => beganAt ≤ now
  | .insertsToken deleted beganAt inserted => ∃ row, server.refreshTokens.get? deleted = some row ∧
      row.clientId = inserted.clientId ∧ beganAt ≤ row.expiresAt
  | _ => True

/-- One of the values that have been generated. -/
def Known (randomBytes : Nat → String) (generated : Nat) (value : String) : Prop :=
  ∃ number < generated, randomBytes number = value

/-- The values generated so far differ from each other. -/
def NoCollision (randomBytes : Nat → String) (generated : Nat) : Prop :=
  ∀ first < generated, ∀ second < generated, randomBytes first = randomBytes second → first = second

/-- A row of the table of codes.  It is not used as long as the code has not
been consumed. -/
def CodeSound (code : String) (row : AuthorizationCode) : Prop :=
  row.code = code ∧ .codeIssued code row.clientId row.redirectUri row.expiresAt ∈ history ∧
    (row.used = false → ∀ clientId redirectUri foundAt,
      .codeConsumed code clientId redirectUri foundAt ∉ history)

/-- A token with a row has neither been exchanged nor revoked. -/
def TokenSound (token : String) (row : RefreshToken) : Prop :=
  .tokenIssued token row.clientId row.expiresAt ∈ history ∧
    (∀ clientId beganAt, .tokenExchanged token clientId beganAt ∉ history) ∧
    .tokenRevoked token row.clientId ∉ history

end

structure Sound (randomBytes : Nat → String) (server : McpOAuth) : Prop where
  noReplay : NoReplay server.history
  issued : ∀ value, Issued server.history value → Known randomBytes server.generated value
  codes : ∀ code row, server.authorizationCodes.get? code = some row →
    CodeSound server.history code row
  tokens : ∀ token row, server.refreshTokens.get? token = some row →
    TokenSound server.history token row
  fresh : ∀ id phase, server.calls.get? id = some phase → id < server.nextCall
  phases : ∀ id phase, server.calls.get? id = some phase → PhaseSound server phase
  pending : ∀ id phase value, server.calls.get? id = some phase → phase.pending? = some value →
    Known randomBytes server.generated value ∧ ¬ Issued server.history value
  distinct : ∀ id other phase otherPhase value, server.calls.get? id = some phase →
    server.calls.get? other = some otherPhase →
    phase.pending? = some value → otherPhase.pending? = some value →
    id = other
  locks : ∀ id other phase otherPhase token, server.calls.get? id = some phase →
    server.calls.get? other = some otherPhase →
    phase.deleted? = some token → otherPhase.deleted? = some token →
    id = other

variable {randomBytes : Nat → String} {server next : McpOAuth} {id : Nat}
  {phase : OAuthPhase} {history : List OAuthOutcome}

theorem start_sound : Sound randomBytes {} := by
  constructor
  · trivial
  · rintro value (⟨_, _, _, listed⟩ | ⟨_, _, listed⟩)
    · cases listed
    · cases listed
  · intro code row found
    cases found
  · intro token row found
    cases found
  · intro id phase found
    cases found
  · intro id phase found
    cases found
  · intro id phase value found
    cases found
  · intro id other phase otherPhase value found
    cases found
  · intro id other phase otherPhase token found
    cases found

variable {foundAt : Nat} {clientId : String} {redirectUri : Option String} {code : String}

theorem NoReplay.issued_of_consumed (noReplay : NoReplay history)
    (listed : .codeConsumed code clientId redirectUri foundAt ∈ history) :
    Issued history code := by
  induction history with
  | nil => cases listed
  | cons outcome earlier ih =>
    have lift (issued : Issued earlier code) : Issued (outcome :: earlier) code := by
      rcases issued with ⟨owner, uri, expiresAt, mem⟩ | ⟨owner, expiresAt, mem⟩
      · exact .inl ⟨owner, uri, expiresAt, .tail _ mem⟩
      · exact .inr ⟨owner, expiresAt, .tail _ mem⟩
    rcases List.mem_cons.mp listed with rfl | before
    · obtain ⟨_, uri, expiresAt, mem, _⟩ := noReplay.1
      exact lift (.inl ⟨clientId, uri, expiresAt, mem⟩)
    · exact lift (ih noReplay.2 before)

variable {beganAt : Nat} {token : String}

theorem NoReplay.issued_of_exchanged (noReplay : NoReplay history)
    (listed : .tokenExchanged token clientId beganAt ∈ history) :
    ∃ expiresAt, .tokenIssued token clientId expiresAt ∈ history := by
  induction history with
  | nil => cases listed
  | cons outcome earlier ih =>
    rcases List.mem_cons.mp listed with rfl | before
    · obtain ⟨_, _, expiresAt, mem, _⟩ := noReplay.1
      exact ⟨expiresAt, .tail _ mem⟩
    · obtain ⟨expiresAt, mem⟩ := ih noReplay.2 before
      exact ⟨expiresAt, .tail _ mem⟩

theorem NoReplay.issued_of_revoked (noReplay : NoReplay history)
    (listed : .tokenRevoked token clientId ∈ history) :
    ∃ expiresAt, .tokenIssued token clientId expiresAt ∈ history := by
  induction history with
  | nil => cases listed
  | cons outcome earlier ih =>
    rcases List.mem_cons.mp listed with rfl | before
    · obtain ⟨expiresAt, mem⟩ := noReplay.1
      exact ⟨expiresAt, .tail _ mem⟩
    · obtain ⟨expiresAt, mem⟩ := ih noReplay.2 before
      exact ⟨expiresAt, .tail _ mem⟩

theorem isIssuedTo_iff : isIssuedTo history token clientId = true ↔
      ∃ expiresAt, .tokenIssued token clientId expiresAt ∈ history := by
  rw [isIssuedTo, List.any_eq_true]
  constructor
  · rintro ⟨outcome, listed, issued⟩
    cases outcome with
    | tokenIssued other owner expiresAt =>
      simp only [Bool.and_eq_true, decide_eq_true_eq] at issued
      obtain ⟨rfl, rfl⟩ := issued
      exact ⟨expiresAt, listed⟩
    | _ => cases issued
  · rintro ⟨expiresAt, listed⟩
    refine ⟨_, listed, ?_⟩
    simp

theorem isLocked_eq_false (free : server.isLocked token = false)
    (found : server.calls.get? id = some phase) :
    phase.deleted? ≠ some token := by
  intro holds
  have listed := mem_values_of_mem_entries (get?_eq_some_iff.mp found)
  have notHeld := List.any_eq_false.mp free phase listed
  exact notHeld (decide_eq_true holds)

/-- What a request knows stays true while the history and the time go on and
the row that it has deleted stays. -/
theorem PhaseSound.mono (sound : PhaseSound server phase)
    (history : server.history ⊆ next.history) (now : server.now ≤ next.now)
    (kept : ∀ token, phase.deleted? = some token →
      next.refreshTokens.get? token = server.refreshTokens.get? token) :
    PhaseSound next phase := by
  cases phase with
  | validatesCode row clientId foundAt purpose =>
    exact ⟨history sound.1, Nat.le_trans sound.2 now⟩
  | consumesCode row clientId foundAt redirectUri =>
    exact ⟨history sound.1, sound.2⟩
  | beginsRotation token clientId beganAt => exact Nat.le_trans sound now
  | insertsToken deleted beganAt inserted =>
    obtain ⟨row, found, rest⟩ := sound
    exact ⟨row, (kept deleted rfl).trans found, rest⟩
  | _ => exact sound

theorem Sound.setPhase (sound : Sound randomBytes server)
    (isCall : id < server.nextCall) (phaseSound : PhaseSound server phase)
    (notPending : phase.pending? = none) (notDeleted : phase.deleted? = none) :
    Sound randomBytes (server.setPhase id phase) := by
  have cases_get? {other : Nat} {otherPhase : OAuthPhase}
      (found : (server.setPhase id phase).calls.get? other = some otherPhase) :
      other = id ∧ otherPhase = phase ∨ server.calls.get? other = some otherPhase := by
    rw [McpOAuth.setPhase, get?_set] at found
    split at found
    next same =>
      exact .inl ⟨same.symm, (Option.some.inj found).symm⟩
    · exact .inr found
  refine ⟨sound.noReplay, sound.issued, sound.codes, sound.tokens, ?_, ?_, ?_, ?_, ?_⟩
  · intro other otherPhase found
    rcases cases_get? found with ⟨rfl, rfl⟩ | before
    · exact isCall
    · exact sound.fresh other otherPhase before
  · intro other otherPhase found
    rcases cases_get? found with ⟨rfl, rfl⟩ | before
    · exact phaseSound.mono (List.Subset.refl _) (Nat.le_refl _) fun _ _ => rfl
    · exact (sound.phases other otherPhase before).mono (List.Subset.refl _)
        (Nat.le_refl _) fun _ _ => rfl
  · intro other otherPhase value found pends
    rcases cases_get? found with ⟨rfl, rfl⟩ | before
    · cases notPending.symm.trans pends
    · exact sound.pending other otherPhase value before pends
  · intro first second firstPhase secondPhase value foundFirst foundSecond pendsFirst pendsSecond
    rcases cases_get? foundFirst with ⟨rfl, rfl⟩ | beforeFirst
    · cases notPending.symm.trans pendsFirst
    · rcases cases_get? foundSecond with ⟨rfl, rfl⟩ | beforeSecond
      · cases notPending.symm.trans pendsSecond
      · exact sound.distinct first second _ _ value beforeFirst beforeSecond pendsFirst pendsSecond
  · intro first second firstPhase secondPhase token foundFirst foundSecond holdsFirst holdsSecond
    rcases cases_get? foundFirst with ⟨rfl, rfl⟩ | beforeFirst
    · cases notDeleted.symm.trans holdsFirst
    · rcases cases_get? foundSecond with ⟨rfl, rfl⟩ | beforeSecond
      · cases notDeleted.symm.trans holdsSecond
      · exact sound.locks first second _ _ token beforeFirst beforeSecond holdsFirst holdsSecond

theorem get?_endCall {other : Nat} {otherPhase : OAuthPhase}
    (found : (server.endCall id).calls.get? other = some otherPhase) :
    other ≠ id ∧ server.calls.get? other = some otherPhase := by
  rw [endCall, get?_delete] at found
  split at found
  · cases found
  next ne =>
    exact ⟨Ne.symm ne, found⟩

theorem Sound.endCall (sound : Sound randomBytes server) (id : Nat) :
    Sound randomBytes (server.endCall id) := by
  refine ⟨sound.noReplay, sound.issued, sound.codes, sound.tokens, ?_, ?_, ?_, ?_, ?_⟩
  · intro other otherPhase found
    exact sound.fresh other otherPhase (get?_endCall found).2
  · intro other otherPhase found
    exact (sound.phases other otherPhase (get?_endCall found).2).mono
      (List.Subset.refl _) (Nat.le_refl _) fun _ _ => rfl
  · intro other otherPhase value found
    exact sound.pending other otherPhase value (get?_endCall found).2
  · intro first second firstPhase secondPhase value foundFirst foundSecond
    exact sound.distinct first second _ _ value (get?_endCall foundFirst).2
      (get?_endCall foundSecond).2
  · intro first second firstPhase secondPhase token foundFirst foundSecond
    exact sound.locks first second _ _ token (get?_endCall foundFirst).2
      (get?_endCall foundSecond).2

variable {value : String}

theorem Known.mono {generated later : Nat}
    (known : Known randomBytes generated value) (le : generated ≤ later) :
    Known randomBytes later value := by
  obtain ⟨number, less, same⟩ := known
  exact ⟨number, Nat.lt_of_lt_of_le less le, same⟩

/-- A request takes a new random value, and with it the deletion of a row that
no other transaction has deleted. -/
theorem Sound.generate (sound : Sound randomBytes server)
    (isCall : id < server.nextCall) {phase : String → OAuthPhase}
    (noCollision : NoCollision randomBytes (server.generated + 1))
    (phaseSound : ∀ value, PhaseSound server (phase value))
    (pends : ∀ value, (phase value).pending? = some value)
    (deletes : ∀ value token, (phase value).deleted? = some token → server.isLocked token = false) :
    Sound randomBytes (server.generate randomBytes id phase) := by
  have new : ¬ Known randomBytes server.generated (randomBytes server.generated) := by
    rintro ⟨number, less, same⟩
    have equal := noCollision number (Nat.lt_succ_of_lt less) server.generated
      (Nat.lt_succ_self _) same
    omega
  have cases_get? {other : Nat} {otherPhase : OAuthPhase}
      (found : (server.generate randomBytes id phase).calls.get? other = some otherPhase) :
      other = id ∧ otherPhase = phase (randomBytes server.generated) ∨
        server.calls.get? other = some otherPhase := by
    rw [McpOAuth.generate, McpOAuth.setPhase, get?_set] at found
    split at found
    next same =>
      exact .inl ⟨same.symm, (Option.some.inj found).symm⟩
    · exact .inr found
  have notNew {other : Nat} {otherPhase : OAuthPhase}
      (before : server.calls.get? other = some otherPhase) :
      otherPhase.pending? ≠ some (randomBytes server.generated) :=
    fun pending => new (sound.pending other otherPhase _ before pending).1
  refine ⟨sound.noReplay, ?_, sound.codes, sound.tokens, ?_, ?_, ?_, ?_, ?_⟩
  · intro value issued
    exact (sound.issued value issued).mono (Nat.le_succ _)
  · intro other otherPhase found
    rcases cases_get? found with ⟨rfl, rfl⟩ | before
    · exact isCall
    · exact sound.fresh other otherPhase before
  · intro other otherPhase found
    rcases cases_get? found with ⟨rfl, rfl⟩ | before
    · exact (phaseSound _).mono (List.Subset.refl _) (Nat.le_refl _) fun _ _ => rfl
    · exact (sound.phases other otherPhase before).mono (List.Subset.refl _)
        (Nat.le_refl _) fun _ _ => rfl
  · intro other otherPhase value found pending
    rcases cases_get? found with ⟨rfl, rfl⟩ | before
    · obtain rfl := Option.some.inj ((pends _).symm.trans pending)
      refine ⟨⟨server.generated, Nat.lt_succ_self _, rfl⟩, fun issued => ?_⟩
      exact new (sound.issued _ issued)
    · obtain ⟨known, notIssued⟩ := sound.pending other otherPhase value before pending
      exact ⟨known.mono (Nat.le_succ _), notIssued⟩
  · intro first second firstPhase secondPhase value foundFirst foundSecond pendsFirst pendsSecond
    rcases cases_get? foundFirst with ⟨rfl, rfl⟩ | beforeFirst
    · obtain rfl := Option.some.inj ((pends _).symm.trans pendsFirst)
      rcases cases_get? foundSecond with ⟨rfl, rfl⟩ | beforeSecond
      · rfl
      · exact absurd pendsSecond (notNew beforeSecond)
    · rcases cases_get? foundSecond with ⟨rfl, rfl⟩ | beforeSecond
      · obtain rfl := Option.some.inj ((pends _).symm.trans pendsSecond)
        exact absurd pendsFirst (notNew beforeFirst)
      · exact sound.distinct first second _ _ value beforeFirst beforeSecond pendsFirst pendsSecond
  · intro first second firstPhase secondPhase token foundFirst foundSecond holdsFirst holdsSecond
    rcases cases_get? foundFirst with ⟨rfl, rfl⟩ | beforeFirst
    · have free := deletes _ token holdsFirst
      rcases cases_get? foundSecond with ⟨rfl, rfl⟩ | beforeSecond
      · rfl
      · exact absurd holdsSecond (isLocked_eq_false free beforeSecond)
    · rcases cases_get? foundSecond with ⟨rfl, rfl⟩ | beforeSecond
      · have free := deletes _ token holdsSecond
        exact absurd holdsFirst (isLocked_eq_false free beforeFirst)
      · exact sound.locks first second _ _ token beforeFirst beforeSecond holdsFirst holdsSecond

variable {outcome : OAuthOutcome}

theorem Issued.of_cons (issued : Issued (outcome :: history) value) :
    (∃ clientId redirectUri expiresAt, outcome = .codeIssued value clientId redirectUri expiresAt) ∨
    (∃ clientId expiresAt, outcome = .tokenIssued value clientId expiresAt) ∨
    Issued history value := by
  rcases issued with ⟨clientId, redirectUri, expiresAt, listed⟩ | ⟨clientId, expiresAt, listed⟩
  · rcases List.mem_cons.mp listed with same | before
    · exact .inl ⟨clientId, redirectUri, expiresAt, same.symm⟩
    · exact .inr (.inr (.inl ⟨clientId, redirectUri, expiresAt, before⟩))
  · rcases List.mem_cons.mp listed with same | before
    · exact .inr (.inl ⟨clientId, expiresAt, same.symm⟩)
    · exact .inr (.inr (.inr ⟨clientId, expiresAt, before⟩))

/-- The tables and the history change.  A value that is issued has been
generated and does not wait in a request, and no row goes that a transaction
has deleted. -/
theorem Sound.change (sound : Sound randomBytes server)
    {codes : OrderedMap String AuthorizationCode}
    {tokens : OrderedMap String RefreshToken}
    (noReplay : NoReplay history) (longer : server.history ⊆ history)
    (issues : ∀ value, Issued history value → Issued server.history value ∨
      Known randomBytes server.generated value ∧
      ∀ id phase, server.calls.get? id = some phase → phase.pending? ≠ some value)
    (codesSound : ∀ code row, codes.get? code = some row → CodeSound history code row)
    (tokensSound : ∀ token row, tokens.get? token = some row → TokenSound history token row)
    (kept : ∀ id phase token, server.calls.get? id = some phase → phase.deleted? = some token →
      tokens.get? token = server.refreshTokens.get? token) :
    Sound randomBytes { server with
        authorizationCodes := codes, refreshTokens := tokens, history } := by
  refine ⟨noReplay, ?_, codesSound, tokensSound, sound.fresh, ?_, ?_, sound.distinct, sound.locks⟩
  · intro value issued
    rcases issues value issued with before | ⟨known, _⟩
    · exact sound.issued value before
    · exact known
  · intro id phase found
    exact (sound.phases id phase found).mono longer (Nat.le_refl _)
      fun token holds => kept id phase token found holds
  · intro id phase value found pending
    obtain ⟨known, notIssued⟩ := sound.pending id phase value found pending
    refine ⟨known, fun issued => ?_⟩
    rcases issues value issued with before | ⟨_, free⟩
    · exact notIssued before
    · exact free id phase found pending

theorem not_pending_of_endCall (sound : Sound randomBytes server)
    (found : server.calls.get? id = some phase)
    (pends : phase.pending? = some value) (other : Nat) (otherPhase : OAuthPhase)
    (otherFound : (server.endCall id).calls.get? other = some otherPhase) :
    otherPhase.pending? ≠ some value := by
  intro otherPends
  obtain ⟨ne, before⟩ := get?_endCall otherFound
  exact ne (sound.distinct other id _ _ value before found otherPends pends)

theorem CodeSound.cons {row : AuthorizationCode} (sound : CodeSound history code row)
    (notConsumed : ∀ clientId redirectUri foundAt,
      outcome ≠ .codeConsumed code clientId redirectUri foundAt) :
    CodeSound (outcome :: history) code row := by
  obtain ⟨same, issued, unused⟩ := sound
  refine ⟨same, .tail _ issued, ?_⟩
  intro isUnused clientId redirectUri foundAt listed
  rcases List.mem_cons.mp listed with latest | before
  · exact notConsumed clientId redirectUri foundAt latest.symm
  · exact unused isUnused clientId redirectUri foundAt before

theorem TokenSound.cons {token : String} {row : RefreshToken} (sound : TokenSound history token row)
    (notExchanged : ∀ clientId beganAt, outcome ≠ .tokenExchanged token clientId beganAt)
    (notRevoked : outcome ≠ .tokenRevoked token row.clientId) :
    TokenSound (outcome :: history) token row := by
  obtain ⟨issued, neverExchanged, neverRevoked⟩ := sound
  refine ⟨.tail _ issued, fun clientId beganAt listed => ?_, fun listed => ?_⟩
  · rcases List.mem_cons.mp listed with latest | before
    · exact notExchanged clientId beganAt latest.symm
    · exact neverExchanged clientId beganAt before
  · rcases List.mem_cons.mp listed with latest | before
    · exact notRevoked latest.symm
    · exact neverRevoked before

variable {row : AuthorizationCode}

theorem Sound.insertCode (sound : Sound randomBytes server)
    (found : server.calls.get? id = some (.insertsCode row)) :
    Sound randomBytes (server.insertCode id row) := by
  rw [McpOAuth.insertCode]
  split
  · exact sound.endCall id
  · obtain ⟨known, notIssued⟩ := sound.pending id _ row.code found rfl
    have free := not_pending_of_endCall sound found rfl
    apply (sound.endCall id).change
    · refine ⟨fun clientId redirectUri expiresAt listed => ?_, sound.noReplay⟩
      exact notIssued (.inl ⟨clientId, redirectUri, expiresAt, listed⟩)
    · exact List.subset_cons_self _ _
    · intro value issued
      rcases issued.of_cons with ⟨_, _, _, same⟩ | ⟨_, _, same⟩ | before
      · injection same with sameCode
        rw [← sameCode]
        exact .inr ⟨known, free⟩
      · cases same
      · exact .inl before
    · intro code stored foundCode
      change (server.authorizationCodes.set row.code row).get? code = some stored at foundCode
      rw [get?_set] at foundCode
      split at foundCode
      next same =>
        subst same
        cases foundCode
        refine ⟨rfl, .head _, fun _ clientId redirectUri foundAt listed => ?_⟩
        rcases List.mem_cons.mp listed with latest | before
        · cases latest
        · exact notIssued (sound.noReplay.issued_of_consumed before)
      · exact (sound.codes code stored foundCode).cons (by simp)
    · intro token stored foundToken
      exact (sound.tokens token stored foundToken).cons (by simp) (by simp)
    · intro other otherPhase token _ _
      rfl

theorem Sound.insertToken (sound : Sound randomBytes server) {row : RefreshToken}
    (known : Known randomBytes server.generated row.token)
    (notIssued : ¬ Issued server.history row.token)
    (free : ∀ id phase, server.calls.get? id = some phase → phase.pending? ≠ some row.token)
    (missing : server.refreshTokens.get? row.token = none) :
    Sound randomBytes (server.insertToken row) := by
  apply sound.change
  · refine ⟨fun clientId expiresAt listed => ?_, sound.noReplay⟩
    exact notIssued (.inr ⟨clientId, expiresAt, listed⟩)
  · exact List.subset_cons_self _ _
  · intro value issued
    rcases issued.of_cons with ⟨_, _, _, same⟩ | ⟨_, _, same⟩ | before
    · cases same
    · injection same with sameToken
      rw [← sameToken]
      exact .inr ⟨known, free⟩
    · exact .inl before
  · intro code stored foundCode
    exact (sound.codes code stored foundCode).cons (by simp)
  · intro token stored foundToken
    change (server.refreshTokens.set row.token row).get? token = some stored at foundToken
    rw [get?_set] at foundToken
    split at foundToken
    next same =>
      subst same
      cases foundToken
      refine ⟨.head _, fun clientId beganAt listed => ?_, fun listed => ?_⟩
      · rcases List.mem_cons.mp listed with latest | before
        · cases latest
        · obtain ⟨expiresAt, issued⟩ := sound.noReplay.issued_of_exchanged before
          exact notIssued (.inr ⟨clientId, expiresAt, issued⟩)
      · rcases List.mem_cons.mp listed with latest | before
        · cases latest
        · obtain ⟨expiresAt, issued⟩ := sound.noReplay.issued_of_revoked before
          exact notIssued (.inr ⟨row.clientId, expiresAt, issued⟩)
    · exact (sound.tokens token stored foundToken).cons (by simp) (by simp)
  · intro id phase token found holds
    change (server.refreshTokens.set row.token row).get? token = _
    rw [get?_set_ne]
    rintro rfl
    have sees := sound.phases id phase found
    cases phase with
    | insertsToken deleted beganAt inserted =>
      cases holds
      obtain ⟨stored, isStored, _⟩ := sees
      cases missing.symm.trans isStored
    | _ => cases holds

theorem Sound.removeCode (sound : Sound randomBytes server) :
    Sound randomBytes (server.removeCode id code) := by
  apply Sound.endCall
  apply sound.change
  · exact sound.noReplay
  · exact List.Subset.refl _
  · exact fun value issued => .inl issued
  · intro other row found
    rw [get?_delete] at found
    split at found
    · cases found
    · exact sound.codes other row found
  · exact sound.tokens
  · intro other phase token _ _
    rfl

theorem Sound.saveTokenPair (sound : Sound randomBytes server)
    {userId : String} (found : server.calls.get? id =
      some (.savesTokenPair token clientId userId)) :
    Sound randomBytes (server.saveTokenPair id token clientId userId) := by
  rw [McpOAuth.saveTokenPair]
  split
  · exact sound.endCall id
  next missing =>
    obtain ⟨known, notIssued⟩ := sound.pending id _ token found rfl
    apply (sound.endCall id).insertToken
    · exact known
    · exact notIssued
    · exact not_pending_of_endCall sound found rfl
    · rw [OrderedMap.has, Bool.not_eq_true, Option.isSome_eq_false_iff,
        Option.isNone_iff_eq_none] at missing
      exact missing

theorem Sound.consumeCode (sound : Sound randomBytes server)
    (isCall : id < server.nextCall) (phaseSound : PhaseSound server
      (.consumesCode row clientId foundAt redirectUri))
    (noCollision : NoCollision randomBytes (server.consumeCode randomBytes id
      row clientId foundAt redirectUri).generated) :
    Sound randomBytes (server.consumeCode randomBytes id row clientId foundAt redirectUri) := by
  revert noCollision
  rw [McpOAuth.consumeCode]
  split
  · exact fun _ => sound.endCall id
  next stored foundCode =>
    split
    · exact fun _ => sound.endCall id
    next isUsed =>
      intro noCollision
      obtain ⟨sameCode, issued, unused⟩ := sound.codes row.code stored foundCode
      have first := unused (Bool.not_eq_true _ ▸ isUsed)
      obtain ⟨issuedTo, inTime, matching⟩ := phaseSound
      have changed : Sound randomBytes ((server.useCode row.code stored).achieve
          (.codeConsumed row.code clientId redirectUri foundAt)) := by
        apply sound.change
        · refine ⟨⟨first, row.redirectUri, row.expiresAt, issuedTo, inTime, ?_⟩, sound.noReplay⟩
          rintro given rfl notEmpty
          by_contra ne
          simp [redirectMismatch, notEmpty, Ne.symm ne] at matching
        · exact List.subset_cons_self _ _
        · intro value isIssued
          rcases isIssued.of_cons with ⟨_, _, _, same⟩ | ⟨_, _, same⟩ | before
          · cases same
          · cases same
          · exact .inl before
        · intro code other foundOther
          change (server.authorizationCodes.set row.code _).get? code = some other at foundOther
          rw [get?_set] at foundOther
          split at foundOther
          next same =>
            subst same
            cases foundOther
            exact ⟨sameCode, .tail _ issued, by simp⟩
          next ne =>
            apply (sound.codes code other foundOther).cons
            intro _ _ _ same
            injection same with equal
            exact ne equal
        · intro token other foundToken
          exact (sound.tokens token other foundToken).cons (by simp) (by simp)
        · intro other otherPhase token _ _
          rfl
      apply changed.generate isCall noCollision
      · exact fun _ => trivial
      · exact fun _ => rfl
      · intro value token holds
        cases holds

theorem Sound.exchange (sound : Sound randomBytes server) {row : RefreshToken}
    (found : server.refreshTokens.get? token = some row)
    (ofClient : row.clientId = clientId) (inTime : beganAt ≤ row.expiresAt)
    (free : ∀ id phase, server.calls.get? id = some phase → phase.deleted? ≠ some token) :
    Sound randomBytes ({ server with refreshTokens := server.refreshTokens.delete token
        }.achieve (.tokenExchanged token clientId beganAt)) := by
  obtain ⟨issued, notExchanged, notRevoked⟩ := sound.tokens token row found
  rw [ofClient] at issued notRevoked
  apply sound.change
  · exact ⟨⟨notExchanged, notRevoked, row.expiresAt, issued, inTime⟩, sound.noReplay⟩
  · exact List.subset_cons_self _ _
  · intro value isIssued
    rcases isIssued.of_cons with ⟨_, _, _, same⟩ | ⟨_, _, same⟩ | before
    · cases same
    · cases same
    · exact .inl before
  · intro code stored foundCode
    exact (sound.codes code stored foundCode).cons (by simp)
  · intro other stored foundOther
    change (server.refreshTokens.delete token).get? other = some stored at foundOther
    rw [get?_delete] at foundOther
    split at foundOther
    · cases foundOther
    next ne =>
      apply (sound.tokens other stored foundOther).cons
      · intro _ _ same
        injection same with equal
        exact ne equal
      · simp
  · intro id phase other foundPhase holds
    change (server.refreshTokens.delete token).get? other = _
    rw [get?_delete, if_neg]
    rintro rfl
    exact free id phase foundPhase holds

theorem Sound.commitRotation (sound : Sound randomBytes server)
    {deleted : String} {inserted : RefreshToken}
    (found : server.calls.get? id = some (.insertsToken deleted beganAt inserted)) :
    Sound randomBytes (server.commitRotation id deleted beganAt inserted) := by
  rw [McpOAuth.commitRotation]
  split
  · exact sound.endCall id
  next missing =>
    obtain ⟨known, notIssued⟩ := sound.pending id _ inserted.token found rfl
    obtain ⟨row, foundRow, ofClient, inTime⟩ := sound.phases id _ found
    have exchanged := (sound.endCall id).exchange foundRow ofClient inTime (by
        intro other otherPhase otherFound holds
        obtain ⟨ne, before⟩ := get?_endCall otherFound
        exact ne (sound.locks other id _ _ deleted before found holds rfl))
    apply exchanged.insertToken known
    · intro issued
      rcases issued.of_cons with ⟨_, _, _, same⟩ | ⟨_, _, same⟩ | before
      · cases same
      · cases same
      · exact notIssued before
    · exact not_pending_of_endCall sound found rfl
    · change (server.refreshTokens.delete deleted).get? inserted.token = none
      rw [OrderedMap.has, Bool.not_eq_true, Option.isSome_eq_false_iff,
        Option.isNone_iff_eq_none] at missing
      rw [get?_delete]
      split
      · rfl
      · exact missing

theorem Sound.noteRevocation (sound : Sound randomBytes server) {token clientId : String}
    (notRow : ∀ row, server.refreshTokens.get? token = some row → row.clientId ≠ clientId) :
    Sound randomBytes (server.noteRevocation token clientId) := by
  rw [McpOAuth.noteRevocation]
  split
  next isIssued =>
    obtain ⟨expiresAt, issued⟩ := isIssuedTo_iff.mp isIssued
    apply sound.change
    · exact ⟨⟨expiresAt, issued⟩, sound.noReplay⟩
    · exact List.subset_cons_self _ _
    · intro value isIssued
      rcases isIssued.of_cons with ⟨_, _, _, same⟩ | ⟨_, _, same⟩ | before
      · cases same
      · cases same
      · exact .inl before
    · intro code stored foundCode
      exact (sound.codes code stored foundCode).cons (by simp)
    · intro other stored foundOther
      apply (sound.tokens other stored foundOther).cons
      · simp
      · intro same
        injection same with sameToken sameClient
        subst sameToken
        exact notRow stored foundOther sameClient.symm
    · intro id phase other _ _
      rfl
  · exact sound

theorem Sound.deleteRow (sound : Sound randomBytes server) (free : server.isLocked token = false) :
    Sound randomBytes { server with refreshTokens := server.refreshTokens.delete token } := by
  apply sound.change
  · exact sound.noReplay
  · exact List.Subset.refl _
  · exact fun value issued => .inl issued
  · exact sound.codes
  · intro other stored foundOther
    rw [get?_delete] at foundOther
    split at foundOther
    · cases foundOther
    · exact sound.tokens other stored foundOther
  · intro id phase other found holds
    rw [get?_delete, if_neg]
    rintro rfl
    exact isLocked_eq_false free found holds

theorem Sound.revokeToken (sound : Sound randomBytes server)
    (revoked : server.revokeToken id token clientId = some next) :
    Sound randomBytes next := by
  rw [McpOAuth.revokeToken] at revoked
  split at revoked
  next missing =>
    cases revoked
    apply Sound.endCall
    apply sound.noteRevocation
    intro row found
    cases missing.symm.trans found
  next row found =>
    split at revoked
    · split at revoked
      · cases revoked
      next free =>
        cases revoked
        apply Sound.endCall
        have deleted := sound.deleteRow (Bool.not_eq_true _ ▸ free)
        have missing : (server.refreshTokens.delete token).get? token = none := by
          rw [get?_delete, if_pos rfl]
        have noted := @Sound.noteRevocation _ _ deleted token clientId
          fun other foundOther => nomatch missing.symm.trans foundOther
        rw [McpOAuth.noteRevocation] at noted ⊢
        split
        next isIssued =>
          rw [if_pos isIssued] at noted
          exact noted
        next isIssued =>
          rw [if_neg isIssued] at noted
          exact noted
    next ne =>
      cases revoked
      apply Sound.endCall
      apply sound.noteRevocation
      intro other foundOther
      obtain rfl := Option.some.inj (found.symm.trans foundOther)
      exact ne

variable {now : Nat}

theorem Sound.deleteToken (sound : Sound randomBytes server) (isCall : id < server.nextCall)
    (noCollision : NoCollision randomBytes next.generated)
    {record : RefreshToken} (inTime : beganAt ≤ now)
    (moved : server.deleteToken randomBytes id record token clientId beganAt now = some next) :
    Sound randomBytes next := by
  rw [McpOAuth.deleteToken] at moved
  split at moved
  · cases moved
    exact sound.endCall id
  next row found =>
    split at moved
    next matching =>
      rw [Bool.and_eq_true, decide_eq_true_eq, decide_eq_true_eq] at matching
      obtain ⟨ofClient, notExpired⟩ := matching
      split at moved
      · cases moved
      next free =>
        cases moved
        apply sound.generate isCall noCollision
        · intro value
          exact ⟨row, found, ofClient, Nat.le_trans inTime notExpired⟩
        · intro value
          rfl
        · intro value other holds
          cases holds
          exact Bool.not_eq_true _ ▸ free
    · cases moved
      exact sound.endCall id

variable {purpose : CodePurpose}

theorem Sound.findCode (sound : Sound randomBytes server) (isCall : id < server.nextCall) :
    Sound randomBytes (server.findCode id code clientId purpose) := by
  rw [McpOAuth.findCode]
  split
  · exact sound.endCall id
  next row found =>
    split
    next ofClient =>
      obtain ⟨sameCode, issued, _⟩ := sound.codes code row found
      apply sound.setPhase isCall _ rfl rfl
      refine ⟨?_, Nat.le_refl _⟩
      rw [sameCode, ← ofClient]
      exact issued
    · exact sound.endCall id

theorem Sound.validateCode (sound : Sound randomBytes server)
    (isCall : id < server.nextCall) (phaseSound : PhaseSound server
      (.validatesCode row clientId foundAt purpose)) :
    Sound randomBytes (server.validateCode id row clientId foundAt purpose) := by
  obtain ⟨issued, earlier⟩ := phaseSound
  unfold McpOAuth.validateCode
  split
  · exact sound.setPhase isCall trivial rfl rfl
  next notExpired =>
    split
    · exact sound.endCall id
    · split
      · exact sound.endCall id
      next matching =>
        apply sound.setPhase isCall _ rfl rfl
        refine ⟨issued, ?_, Bool.not_eq_true _ ▸ matching⟩
        exact Nat.le_trans earlier (Nat.le_of_not_lt notExpired)

theorem Sound.findToken (sound : Sound randomBytes server)
    (isCall : id < server.nextCall) (inTime : beganAt ≤ now) :
    Sound randomBytes (server.findToken id token clientId beganAt now) := by
  rw [McpOAuth.findToken]
  split
  · exact sound.endCall id
  · split
    · exact sound.setPhase isCall inTime rfl rfl
    · exact sound.endCall id

theorem Sound.answer (sound : Sound randomBytes server) (found : server.calls.get? id = some phase)
    (answered : server.answer randomBytes id phase = some next)
    (noCollision : NoCollision randomBytes next.generated) :
    Sound randomBytes next := by
  have isCall := sound.fresh id phase found
  have knows := sound.phases id phase found
  cases phase with
  | insertsCode row =>
    cases answered
    exact sound.insertCode found
  | findsCode code clientId purpose =>
    cases answered
    exact sound.findCode isCall
  | validatesCode row clientId foundAt purpose =>
    cases answered
    exact sound.validateCode isCall knows
  | removesCode code =>
    cases answered
    exact sound.removeCode
  | consumesCode row clientId foundAt redirectUri =>
    cases answered
    exact sound.consumeCode isCall knows noCollision
  | savesTokenPair refreshToken clientId userId =>
    cases answered
    exact sound.saveTokenPair found
  | beginsRotation token clientId beganAt =>
    cases answered
    exact sound.setPhase isCall knows rfl rfl
  | findsToken token clientId beganAt now =>
    cases answered
    exact sound.findToken isCall knows
  | deletesToken record token clientId beganAt now =>
    exact sound.deleteToken isCall noCollision knows answered
  | insertsToken deleted beganAt inserted =>
    cases answered
    exact sound.commitRotation found
  | revokesToken token clientId => exact sound.revokeToken answered

theorem Sound.request (sound : Sound randomBytes server) (request : OAuthRequest)
    (noCollision : NoCollision randomBytes ({ server with
      nextCall := server.nextCall + 1 }.firstPhase randomBytes server.nextCall request).generated) :
    Sound randomBytes ({ server with nextCall := server.nextCall + 1
      }.firstPhase randomBytes server.nextCall request) := by
  have counted : Sound randomBytes { server with nextCall := server.nextCall + 1 } := by
    refine ⟨sound.noReplay, sound.issued, sound.codes, sound.tokens, ?_, ?_,
      sound.pending, sound.distinct, sound.locks⟩
    · intro id phase found
      exact Nat.lt_succ_of_lt (sound.fresh id phase found)
    · intro id phase found
      exact (sound.phases id phase found).mono (List.Subset.refl _) (Nat.le_refl _) fun _ _ => rfl
  have isCall := Nat.lt_succ_self server.nextCall
  cases request with
  | createAuthorizationCode clientId userId redirectUri codeChallenge state =>
    rw [firstPhase]
    apply counted.generate isCall noCollision
    · exact fun _ => trivial
    · exact fun _ => rfl
    · intro value token holds
      cases holds
  | getCodeChallenge code clientId
  | exchangeAuthorizationCode code clientId redirectUri
  | revokeRefreshToken token clientId =>
    exact counted.setPhase isCall trivial rfl rfl
  | validateAndRotateRefreshToken token clientId =>
    exact counted.setPhase isCall (Nat.le_refl server.now) rfl rfl

theorem Sound.step (sound : Sound randomBytes server) {event : OAuthEvent}
    (moved : step randomBytes server event = some next)
    (noCollision : NoCollision randomBytes next.generated) :
    Sound randomBytes next := by
  cases event with
  | passes milliseconds =>
    cases moved
    refine ⟨sound.noReplay, sound.issued, sound.codes, sound.tokens,
      sound.fresh, ?_, sound.pending, sound.distinct, sound.locks⟩
    intro id phase found
    exact (sound.phases id phase found).mono (List.Subset.refl _)
      (Nat.le_add_right _ _) fun _ _ => rfl
  | request request =>
    cases moved
    exact sound.request request noCollision
  | answers id =>
    obtain ⟨phase, found, answered⟩ := Option.bind_eq_some_iff.mp moved
    exact sound.answer found answered noCollision
  | fails id =>
    cases moved
    exact sound.endCall id

theorem generated_le_of_answer (answered : server.answer randomBytes id phase = some next) :
    server.generated ≤ next.generated := by
  cases phase with
  | insertsCode row =>
    cases answered
    rw [insertCode]
    split
    · exact Nat.le_refl _
    · exact Nat.le_refl _
  | findsCode code clientId purpose =>
    cases answered
    rw [findCode]
    split
    · exact Nat.le_refl _
    · split
      · exact Nat.le_refl _
      · exact Nat.le_refl _
  | validatesCode row clientId foundAt purpose =>
    cases answered
    unfold validateCode
    split
    · exact Nat.le_refl _
    · split
      · exact Nat.le_refl _
      · split
        · exact Nat.le_refl _
        · exact Nat.le_refl _
  | removesCode code | beginsRotation token clientId beganAt =>
    cases answered
    exact Nat.le_refl _
  | consumesCode row clientId foundAt redirectUri =>
    cases answered
    rw [consumeCode]
    split
    · exact Nat.le_refl _
    · split
      · exact Nat.le_refl _
      · exact Nat.le_succ _
  | savesTokenPair refreshToken clientId userId =>
    cases answered
    rw [saveTokenPair]
    split
    · exact Nat.le_refl _
    · exact Nat.le_refl _
  | findsToken token clientId beganAt now =>
    cases answered
    rw [findToken]
    split
    · exact Nat.le_refl _
    · split
      · exact Nat.le_refl _
      · exact Nat.le_refl _
  | deletesToken record token clientId beganAt now =>
    rw [answer, deleteToken] at answered
    split at answered
    · cases answered
      exact Nat.le_refl _
    · split at answered
      · split at answered
        · cases answered
        · cases answered
          exact Nat.le_succ _
      · cases answered
        exact Nat.le_refl _
  | insertsToken deleted beganAt inserted =>
    cases answered
    rw [commitRotation]
    split
    · exact Nat.le_refl _
    · exact Nat.le_refl _
  | revokesToken token clientId =>
    have noted : (server.noteRevocation token clientId).generated =
        server.generated := by
      rw [noteRevocation]
      split
      · rfl
      · rfl
    rw [answer, revokeToken] at answered
    split at answered
    · cases answered
      exact noted.ge
    · split at answered
      · split at answered
        · cases answered
        · cases answered
          exact noted.ge
      · cases answered
        exact noted.ge

theorem generated_le_of_step {event : OAuthEvent}
    (moved : step randomBytes server event = some next) :
    server.generated ≤ next.generated := by
  cases event with
  | passes milliseconds | fails id =>
    cases moved
    exact Nat.le_refl _
  | request request =>
    cases moved
    cases request with
    | createAuthorizationCode => exact Nat.le_succ _
    | _ => exact Nat.le_refl _
  | answers id =>
    obtain ⟨phase, _, answered⟩ := Option.bind_eq_some_iff.mp moved
    exact generated_le_of_answer answered

/-- No code and no refresh token is replayed in a run whose random values
differ from each other. -/
theorem noReplay_of_run {events : List OAuthEvent}
    (reached : (step randomBytes).run {} events = some next)
    (noCollision : NoCollision randomBytes next.generated) :
    NoReplay next.history := by
  have sound (last : McpOAuth) (reached : (step randomBytes).run {} events = some last) :
      NoCollision randomBytes last.generated → Sound randomBytes last :=
    Machine.invariant_of_run (fun server => NoCollision randomBytes server.generated →
        Sound randomBytes server)
      (fun server event next before stepped noCollision => by
        have less := generated_le_of_step stepped
        have earlier : NoCollision randomBytes server.generated :=
          fun first isFirst second isSecond =>
            noCollision first (Nat.lt_of_lt_of_le isFirst less) second
              (Nat.lt_of_lt_of_le isSecond less)
        exact (before earlier).step stepped noCollision)
      (fun _ => start_sound) reached
  exact (sound next reached noCollision).noReplay

def sampleBytes (number : Nat) : String :=
  String.ofList (List.replicate 64 (Nat.digitChar (number % 16)))

/-- Two exchanges of a code overlap, then two rotations of the refresh token
and a revocation. -/
def sampleEvents : List OAuthEvent :=
  [.request (.createAuthorizationCode "client" "user" "https://a" "x" none),
    .answers 0, .passes 1000,
    .request (.exchangeAuthorizationCode (sampleBytes 0) "client" none),
    .request (.exchangeAuthorizationCode (sampleBytes 0) "client" (some "https://a")),
    .answers 1, .answers 2, .answers 1, .answers 2, .answers 1, .answers 2,
    .answers 1, .passes 5000,
    .request (.validateAndRotateRefreshToken (sampleBytes 1) "client"),
    .request (.validateAndRotateRefreshToken (sampleBytes 1) "client"),
    .answers 3, .answers 4, .answers 3, .answers 4, .answers 3, .answers 3,
    .answers 4, .request (.revokeRefreshToken (sampleBytes 2) "client"),
    .answers 5]

theorem noReplay_sampleEvents : ∃ last, (step sampleBytes).run {} sampleEvents = some last ∧
      last.history.length = 6 ∧ NoReplay last.history := by
  have reaches : ((step sampleBytes).run {} sampleEvents).isSome = true := by
    decide +kernel
  obtain ⟨last, reached⟩ := Option.isSome_iff_exists.mp reaches
  have generated : ((step sampleBytes).run {} sampleEvents).map McpOAuth.generated = some 3 := by
    decide +kernel
  have listed : ((step sampleBytes).run {} sampleEvents).map
      (fun server => server.history.length) = some 6 := by
    decide +kernel
  rw [reached] at generated listed
  refine ⟨last, reached, Option.some.inj listed, noReplay_of_run reached ?_⟩
  rw [NoCollision, Option.some.inj generated]
  decide +kernel

end McpOAuth

end N8n
