import N8n.Mcp.OAuthService

/-!
# Whose tokens these are

A refresh token belongs to a client and a user.  Whatever requests overlap, it
is one which a code was created for.
-/

namespace N8n

namespace McpOAuth

/-- What a request holds is of a client and a user for whom it is granted. -/
def IsGranted (granted : String → String → Prop) : OAuthPhase → Prop
  | .insertsCode row => granted row.clientId row.userId
  | .validatesCode row clientId _ _ | .consumesCode row clientId _ _ =>
    row.clientId = clientId ∧ granted row.clientId row.userId
  | .savesTokenPair _ clientId userId => granted clientId userId
  | .deletesToken record _ clientId _ _ =>
    record.clientId = clientId ∧ granted record.clientId record.userId
  | .insertsToken _ _ inserted => granted inserted.clientId inserted.userId
  | _ => True

structure Granted (granted : String → String → Prop) (server : McpOAuth) : Prop where
  codes : server.authorizationCodes.All fun _ row => granted row.clientId row.userId
  tokens : server.refreshTokens.All fun _ row => granted row.clientId row.userId
  calls : server.calls.All fun _ phase => IsGranted granted phase

section Grants

variable {granted : String → String → Prop} {randomBytes : Nat → String}
  {server next : McpOAuth} {id : Nat} {phase : OAuthPhase}

theorem Granted.setPhase (holds : server.Granted granted) (fits : IsGranted granted phase) :
    (server.setPhase id phase).Granted granted :=
  { holds with calls := holds.calls.set fits }

theorem Granted.endCall (holds : server.Granted granted) : (server.endCall id).Granted granted :=
  { holds with calls := holds.calls.delete }

theorem Granted.answer (holds : server.Granted granted) (fits : IsGranted granted phase)
    (answered : server.answer randomBytes id phase = some next) : next.Granted granted := by
  cases phase with
  | insertsCode row =>
    cases answered
    rw [insertCode]
    split
    · exact holds.endCall
    · exact { holds with
        codes := holds.codes.set fits
        calls := holds.calls.delete }
  | findsCode code clientId purpose =>
    cases answered
    rw [findCode]
    split
    · exact holds.endCall
    next row found =>
      split
      next same => exact holds.setPhase ⟨same, holds.codes _ _ found⟩
      · exact holds.endCall
  | validatesCode row clientId foundAt purpose =>
    cases answered
    simp only [validateCode]
    split
    · exact holds.setPhase True.intro
    · split
      · exact holds.endCall
      · split
        · exact holds.endCall
        · exact holds.setPhase fits
  | removesCode code =>
    cases answered
    exact { holds with
      codes := holds.codes.delete
      calls := holds.calls.delete }
  | consumesCode row clientId foundAt redirectUri =>
    cases answered
    rw [consumeCode]
    split
    · exact holds.endCall
    next stored found =>
      split
      · exact holds.endCall
      · have kept : granted stored.clientId stored.userId := holds.codes _ _ found
        exact { holds with
          codes := holds.codes.set kept
          calls := holds.calls.set (fits.1 ▸ fits.2) }
  | savesTokenPair refreshToken clientId userId =>
    cases answered
    rw [saveTokenPair]
    split
    · exact holds.endCall
    · exact { holds with
        tokens := holds.tokens.set fits
        calls := holds.calls.delete }
  | beginsRotation =>
    cases answered
    exact holds.setPhase True.intro
  | findsToken token clientId beganAt now =>
    cases answered
    rw [findToken]
    split
    · exact holds.endCall
    next record found =>
      split
      next same => exact holds.setPhase ⟨same, holds.tokens _ _ found⟩
      · exact holds.endCall
  | deletesToken record token clientId beganAt now =>
    simp only [McpOAuth.answer, deleteToken] at answered
    split at answered
    · cases answered
      exact holds.endCall
    · split at answered
      · split at answered
        · cases answered
        · cases answered
          exact { holds with calls := holds.calls.set (fits.1 ▸ fits.2) }
      · cases answered
        exact holds.endCall
  | insertsToken deleted beganAt inserted =>
    cases answered
    rw [commitRotation]
    split
    · exact holds.endCall
    · exact { holds with
        tokens := holds.tokens.delete.set fits
        calls := holds.calls.delete }
  | revokesToken token clientId =>
    have noted : (server.noteRevocation token clientId).Granted granted := by
      rw [noteRevocation]
      split
      · exact { holds with }
      · exact holds
    simp only [McpOAuth.answer, revokeToken] at answered
    split at answered
    · cases answered
      exact noted.endCall
    · split at answered
      · split at answered
        · cases answered
        · cases answered
          exact { noted with
            tokens := holds.tokens.delete
            calls := noted.calls.delete }
      · cases answered
        exact noted.endCall

/-- A code is only created for a client and a user of whom this is granted. -/
def Grants (granted : String → String → Prop) : OAuthEvent → Prop
  | .request (.createAuthorizationCode clientId userId _ _ _) => granted clientId userId
  | _ => True

theorem granted_step {event : OAuthEvent} (holds : server.Granted granted)
    (grants : Grants granted event)
    (moved : step randomBytes server event = some next) : next.Granted granted := by
  cases event with
  | passes milliseconds =>
    cases moved
    exact { holds with }
  | request request =>
    cases moved
    cases request with
    | createAuthorizationCode clientId userId =>
      exact { holds with calls := holds.calls.set grants }
    | _ => exact { holds with calls := holds.calls.set True.intro }
  | answers id =>
    obtain ⟨phase, found, answered⟩ := Option.bind_eq_some_iff.mp moved
    exact holds.answer (holds.calls id phase found) answered
  | fails id =>
    cases moved
    exact holds.endCall

end Grants

/-- Whatever requests overlap, a refresh token is of a client and a user for
whom a code was asked for. -/
theorem tokens_granted (randomBytes : Nat → String) (events : List OAuthEvent) :
    (step randomBytes).Always (fun server => ∀ token row,
      server.refreshTokens.get? token = some row → ∃ redirectUri codeChallenge state,
        .request (.createAuthorizationCode row.clientId row.userId redirectUri codeChallenge
          state) ∈ events) {} events := by
  let granted clientId userId := ∃ redirectUri codeChallenge state, OAuthEvent.request
    (.createAuthorizationCode clientId userId redirectUri codeChallenge state) ∈ events
  have grants : ∀ event ∈ events, Grants granted event := by
    intro event mem
    cases event with
    | request request =>
      cases request with
      | createAuthorizationCode => exact ⟨_, _, _, mem⟩
      | _ => exact True.intro
    | _ => exact True.intro
  have empty : Granted granted {} :=
    ⟨OrderedMap.all_empty, OrderedMap.all_empty, OrderedMap.all_empty⟩
  exact Machine.always_of_meets (fun _ _ _ holds met moved => granted_step holds met moved)
    (fun _ (holds : Granted granted _) => holds.tokens) empty (Machine.meets_of_mem grants _)

end McpOAuth

end N8n
