import SalesData.Auth.ApiKeyService

/-!
# What key operations report

`create_api_key`, `revoke_api_key` and `delete_api_key` (`core/auth/api_key_service.py:79–245`)
rest on methods of `ServiceDatabase` that turn an exception into `False` and look at no row count
(`core/storage/service_db.py:601–728`). The service does not look at the verdict of a creation
(line 101), and a revocation or deletion that meets no row is reported as a success, against
"True if revoked, False if not found" (line 211, and 233 for deletion).
-/

namespace SalesData.Auth

open Base
open Cache (Time Time.toInt)

namespace APIKeyService

variable (sha256 : Text → Text) (env : Env)

/-- `revoke_api_key` with its result (`api_key_service.py:213–220`). -/
def revokeApiKeyResult (keyId ownerId : Text) (s : AuthState) : Bool × AuthState :=
  ((s.apiKeys.revoke keyId ownerId (env.fails .revokeApiKey)).isSome,
    revokeApiKey env keyId ownerId s)

/-- `delete_api_key` with its result (`api_key_service.py:235–242`). -/
def deleteApiKeyResult (keyId ownerId : Text) (s : AuthState) : Bool × AuthState :=
  ((s.apiKeys.delete keyId ownerId (env.fails .deleteApiKey)).isSome,
    deleteApiKey env keyId ownerId s)

/-- The key that `create_api_key` returns is stored, and active. -/
def CreateTruthful (ownerId : Text) (scopes : Option Text) (expiresAt : Option Int)
    (s : AuthState) : Prop :=
  ∃ row ∈ (createApiKey sha256 env ownerId scopes expiresAt s).2.apiKeys.rows,
    row.apiKeyHash = sha256 (createApiKey sha256 env ownerId scopes expiresAt s).1.apiKey ∧
      row.isActive = true

/-- A `True` of `revoke_api_key` tells of a row that was there and is inactive now. -/
def RevokeTruthful (keyId ownerId : Text) (s : AuthState) : Prop :=
  (revokeApiKeyResult env keyId ownerId s).1 = true →
    (∃ row ∈ s.apiKeys.rows, row.keyId = keyId ∧ row.ownerId = ownerId) ∧
    ∀ row ∈ (revokeApiKeyResult env keyId ownerId s).2.apiKeys.rows,
      row.keyId = keyId → row.ownerId = ownerId → row.isActive = false

/-- A `True` of `delete_api_key` tells of a row that was there and is gone now. -/
def DeleteTruthful (keyId ownerId : Text) (s : AuthState) : Prop :=
  (deleteApiKeyResult env keyId ownerId s).1 = true →
    (∃ row ∈ s.apiKeys.rows, row.keyId = keyId ∧ row.ownerId = ownerId) ∧
    ∀ row ∈ (deleteApiKeyResult env keyId ownerId s).2.apiKeys.rows,
      ¬ (row.keyId = keyId ∧ row.ownerId = ownerId)

/-- The insertion of a new key takes effect. -/
def Inserts (s : AuthState) : Prop :=
  env.fails .createApiKey = false ∧
    ∀ row ∈ s.apiKeys.rows, row.keyId ≠ freshId "key" (env.now 1) env.tokenHex

variable {sha256 : Text → Text} {env : Env}

/-- A creation adds its row, or changes nothing. -/
theorem createApiKey_rows (ownerId : Text) (scopes : Option Text) (expiresAt : Option Int)
    (s : AuthState) :
    (Inserts env s ∧ (createApiKey sha256 env ownerId scopes expiresAt s).2.apiKeys.rows =
      s.apiKeys.rows ++ [⟨freshId "key" (env.now 1) env.tokenHex, sha256 env.apiKey, ownerId,
        (env.now 2).toInt, expiresAt, scopes, true⟩]) ∨
    ¬ Inserts env s ∧
      (createApiKey sha256 env ownerId scopes expiresAt s).2.apiKeys.rows = s.apiKeys.rows := by
  unfold createApiKey
  dsimp only
  split
  · next apiKeys hcreate =>
    unfold ApiKeys.create at hcreate
    split at hcreate
    · cases hcreate
    · next hok =>
      left
      refine ⟨⟨by simpa using hok, fun row hrow hid ↦ ?_⟩, Table.rows_insert hcreate⟩
      unfold Table.insert at hcreate
      split at hcreate
      · next hfresh =>
        apply hfresh ApiKey.keyId (by simp)
        exact List.mem_map.mpr ⟨row, hrow, hid⟩
      · cases hcreate
  · next hcreate =>
    refine .inr ⟨fun hinserts ↦ ?_, rfl⟩
    obtain ⟨hok, hfresh⟩ := hinserts
    rw [ApiKeys.create, hok, if_neg (by simp), Table.insert, dif_pos] at hcreate
    · cases hcreate
    · intro k hk hmem
      obtain rfl := List.mem_singleton.mp hk
      obtain ⟨row, hrow, hid⟩ := List.mem_map.mp hmem
      exact hfresh row hrow hid

/-- The table behind a revocation. -/
theorem revokeApiKey_apiKeys (keyId ownerId : Text) (s : AuthState) :
    (revokeApiKey env keyId ownerId s).apiKeys =
      (s.apiKeys.revoke keyId ownerId (env.fails .revokeApiKey)).getD s.apiKeys := by
  unfold revokeApiKey
  split
  · next h =>
    rw [h]
    rfl
  · next h =>
    rw [h]
    rfl

/-- The table behind a deletion. -/
theorem deleteApiKey_apiKeys (keyId ownerId : Text) (s : AuthState) :
    (deleteApiKey env keyId ownerId s).apiKeys =
      (s.apiKeys.delete keyId ownerId (env.fails .deleteApiKey)).getD s.apiKeys := by
  unfold deleteApiKey
  split
  · next h =>
    rw [h]
    rfl
  · next h =>
    rw [h]
    rfl

/-- A creation is reported truthfully if its row gets in, or an active one has the digest. -/
theorem createTruthful_iff (ownerId : Text) (scopes : Option Text) (expiresAt : Option Int)
    (s : AuthState) : CreateTruthful sha256 env ownerId scopes expiresAt s ↔
      Inserts env s ∨
        ∃ row ∈ s.apiKeys.rows, row.apiKeyHash = sha256 env.apiKey ∧ row.isActive = true := by
  unfold CreateTruthful
  have hcases := @createApiKey_rows sha256 env ownerId scopes expiresAt s
  rcases hcases with ⟨hinserts, hrows⟩ | ⟨hnot, hrows⟩
  · rw [hrows]
    refine iff_of_true ⟨_, List.mem_append_right _ (List.mem_singleton_self _), ?_⟩ (.inl hinserts)
    exact ⟨rfl, rfl⟩
  · rw [hrows]
    constructor
    · exact fun h ↦ .inr h
    · exact fun h ↦ h.resolve_left hnot

/-- A revocation is reported truthfully if it fails or meets a row. -/
theorem revokeTruthful_iff (keyId ownerId : Text) (s : AuthState) :
    RevokeTruthful env keyId ownerId s ↔ env.fails .revokeApiKey = true ∨
      ∃ row ∈ s.apiKeys.rows, row.keyId = keyId ∧ row.ownerId = ownerId := by
  unfold RevokeTruthful revokeApiKeyResult
  rw [revokeApiKey_apiKeys, ApiKeys.revoke]
  cases hfails : env.fails .revokeApiKey with
  | true => simp
  | false =>
    simp only [Bool.false_eq_true, if_false, Option.isSome_some, forall_const, Option.getD_some,
      false_or, and_iff_left_iff_imp]
    rintro - row hrow hkey howner
    obtain ⟨old, -, rfl⟩ := Table.mem_update.mp hrow
    split at hkey
    · next hp => rw [if_pos hp]
    · next hp =>
      rw [if_neg hp] at howner
      simp [hkey, howner] at hp

/-- A deletion is reported truthfully if it fails or meets a row. -/
theorem deleteTruthful_iff (keyId ownerId : Text) (s : AuthState) :
    DeleteTruthful env keyId ownerId s ↔ env.fails .deleteApiKey = true ∨
      ∃ row ∈ s.apiKeys.rows, row.keyId = keyId ∧ row.ownerId = ownerId := by
  unfold DeleteTruthful deleteApiKeyResult
  rw [deleteApiKey_apiKeys, ApiKeys.delete]
  cases hfails : env.fails .deleteApiKey with
  | true => simp
  | false =>
    simp only [Bool.false_eq_true, if_false, Option.isSome_some, forall_const, Option.getD_some,
      false_or, and_iff_left_iff_imp]
    rintro - row hrow ⟨hkey, howner⟩
    have hnot := (List.mem_filter.mp hrow).2
    simp [hkey, howner] at hnot

/-- A key whose digest is in the table, active and not expired, is accepted. -/
theorem validateApiKey_of_row {apiKey : Text} {s : AuthState}
    (hok : env.fails .validateApiKey = false)
    (hrow : ∃ row ∈ s.apiKeys.rows, row.apiKeyHash = sha256 apiKey ∧ row.isActive = true)
    (hfresh : ∀ row ∈ s.apiKeys.rows, row.apiKeyHash = sha256 apiKey → row.isActive = true →
      ∀ e ∈ row.expiresAt, e = 0 ∨ (env.now 0).toInt ≤ e) :
    (validateApiKey sha256 env apiKey s).1 ≠ none := by
  have hlookup (t : AuthState) (ht : t.apiKeys = s.apiKeys) :
      (lookup env (sha256 apiKey) t).1 ≠ none := by
    obtain ⟨row, hmem, hhash, hactive⟩ := hrow
    cases hfind : s.apiKeys.find? fun r ↦ r.apiKeyHash == sha256 apiKey && r.isActive with
    | none =>
      have hnone := List.find?_eq_none.mp hfind row hmem
      simp [hhash, hactive] at hnone
    | some found =>
      obtain ⟨hfound, hkey⟩ := Table.of_find? hfind
      simp only [Bool.and_eq_true, beq_iff_eq] at hkey
      have hvalid : s.apiKeys.validate (sha256 apiKey) (env.now 0).toInt false = some found := by
        rw [ApiKeys.validate, if_neg (by simp), hfind, Option.filter_some, if_pos]
        cases hexp : found.expiresAt with
        | none => rfl
        | some e =>
          have hle := hfresh found hfound hkey.1 hkey.2 e hexp
          simp only [Option.any_some, Bool.not_eq_true', Bool.and_eq_false_iff,
            decide_eq_false_iff_not, ne_eq, not_not, not_lt]
          exact hle
      rw [lookup, ht, hok, hvalid]
      simp
  unfold validateApiKey
  dsimp only
  split
  · split
    · simp
    · exact hlookup _ rfl
  · exact hlookup _ rfl

/-- In every state, and whatever fails: a creation, a revocation and a deletion report the truth
exactly if the new row gets in (or its digest is there already and active), and if the statement
fails or meets a row of that key and owner; and a key that is stored is accepted while it is active
and not expired. -/
theorem keyOperations_truthful (sha256 : Text → Text) (env : Env) (s : AuthState) :
    (∀ ownerId scopes expiresAt, CreateTruthful sha256 env ownerId scopes expiresAt s ↔
      Inserts env s ∨
        ∃ row ∈ s.apiKeys.rows, row.apiKeyHash = sha256 env.apiKey ∧ row.isActive = true) ∧
    (∀ keyId ownerId, RevokeTruthful env keyId ownerId s ↔ env.fails .revokeApiKey = true ∨
      ∃ row ∈ s.apiKeys.rows, row.keyId = keyId ∧ row.ownerId = ownerId) ∧
    (∀ keyId ownerId, DeleteTruthful env keyId ownerId s ↔ env.fails .deleteApiKey = true ∨
      ∃ row ∈ s.apiKeys.rows, row.keyId = keyId ∧ row.ownerId = ownerId) ∧
    ∀ apiKey (t : AuthState) (later : Env), later.fails .validateApiKey = false →
      (∃ row ∈ t.apiKeys.rows, row.apiKeyHash = sha256 apiKey ∧ row.isActive = true) →
      (∀ row ∈ t.apiKeys.rows, row.apiKeyHash = sha256 apiKey → row.isActive = true →
        ∀ e ∈ row.expiresAt, e = 0 ∨ (later.now 0).toInt ≤ e) →
      (validateApiKey sha256 later apiKey t).1 ≠ none := by
  refine ⟨fun ownerId scopes expiresAt ↦ ?_, fun keyId ownerId ↦ ?_, fun keyId ownerId ↦ ?_,
    fun apiKey t later hok hrow hfresh ↦ ?_⟩
  · exact createTruthful_iff ownerId scopes expiresAt s
  · exact revokeTruthful_iff keyId ownerId s
  · exact deleteTruthful_iff keyId ownerId s
  · exact validateApiKey_of_row hok hrow hfresh

-- A process that has no key yet.
private def noKeys : AuthState := ⟨Table.empty, Table.empty, Dict.empty, Dict.empty, Dict.empty⟩

-- The database refuses to insert keys.
private def refusingEnv : Env :=
  ⟨fun _ ↦ 1, 1, (· == .createApiKey), false, "ab".toList, "salt".toList, "sk_1".toList⟩

/-- A key whose insertion failed is handed out and then refused, and revoking or deleting a key that
nobody has is a success. -/
theorem keyOperations_untruthful :
    ¬ CreateTruthful id refusingEnv "bob".toList none none noKeys ∧
      (validateApiKey id refusingEnv "sk_1".toList
        (createApiKey id refusingEnv "bob".toList none none noKeys).2).1 = none ∧
    ¬ RevokeTruthful refusingEnv "key_x".toList "bob".toList noKeys ∧
    ¬ DeleteTruthful refusingEnv "key_x".toList "bob".toList noKeys := by
  refine ⟨fun h ↦ ?_, by decide +kernel, fun h ↦ ?_, fun h ↦ ?_⟩
  · obtain ⟨row, hrow, -⟩ := h
    cases hrow
  · obtain ⟨⟨row, hrow, -⟩, -⟩ := h rfl
    cases hrow
  · obtain ⟨⟨row, hrow, -⟩, -⟩ := h rfl
    cases hrow

end APIKeyService
end SalesData.Auth
