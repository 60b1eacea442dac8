import ProtonWire.Scheduler.Model
import ProtonWire.Store.Yaml

/-!
# The catalog adapter and its bridge

`crates/api/src/catalog.rs` and `CatalogService` of `apps/daemon/src/services.rs`: what one catalog
request makes of the answer of the upstream, and what the scheduler is told of it. A response
carries the header values that read as text, and what `ok()` makes of its status.

* `parseRetryAfter`: the delay of a rate limit; `parseRetryAfter_le`, `parseRetryAfter_digits`;
* `MuonCatalog.fetch`, `bridgeFetch`, `CatalogService.fetch`;
* **`retryAfter_fetch_le`**: no answer of the upstream is heard as a delay above the ceiling.
-/

namespace ProtonWire

/-! ## The delay -/

/-- `RETRY_AFTER_CEILING_SECONDS`. -/
def retryAfterCeilingSeconds : ℕ := 30 * 24 * 60 * 60

/-- `str::trim`. -/
def trimmed (text : List Char) : List Char :=
  ((text.dropWhile Yaml.isWhitespace).reverse.dropWhile Yaml.isWhitespace).reverse

/-- `str::parse::<u128>`: decimal digits, behind a plus sign or not. -/
def parseU128 (text : List Char) : Option ℕ :=
  let digits := if text.head? = some '+' then text.tail else text
  if digits ≠ [] ∧ digits.all Char.isDigit = true ∧ Nat.ofDigitChars 10 digits 0 < 2 ^ 128 then
    some (Nat.ofDigitChars 10 digits 0)
  else none

/-- `parse_retry_after`. -/
def parseRetryAfter (value : Option String) : Option ℕ :=
  (value.bind fun text => parseU128 (trimmed text.toList)).map fun seconds =>
    min (if seconds ≤ U64.max then seconds else U64.max) retryAfterCeilingSeconds

/-- **No delay above the ceiling.** -/
theorem parseRetryAfter_le {value : Option String} {seconds : ℕ}
    (h : parseRetryAfter value = some seconds) :
    seconds ≤ retryAfterCeilingSeconds := by
  obtain ⟨parsed, -, rfl⟩ := Option.map_eq_some_iff.mp h
  exact Nat.min_le_right _ _

theorem not_isWhitespace_of_isDigit {c : Char} (h : c.isDigit = true) :
    Yaml.isWhitespace c = false := by
  have hrange : 48 ≤ c.toNat ∧ c.toNat ≤ 57 := by
    rw [Char.isDigit, Bool.and_eq_true, decide_eq_true_eq, decide_eq_true_eq] at h
    exact h
  simp only [Yaml.isWhitespace, Bool.or_eq_false_iff, Bool.and_eq_false_iff,
    decide_eq_false_iff_not, beq_eq_false_iff_ne, ne_eq]
  omega

theorem trimmed_digits {digits : List Char} (h : ∀ c ∈ digits, c.isDigit = true) :
    trimmed digits = digits := by
  have hkept : ∀ l : List Char, (∀ c ∈ l, c.isDigit = true) →
    l.dropWhile Yaml.isWhitespace = l := by
    intro l hl
    cases l with
    | nil => rfl
    | cons c l =>
      rw [List.dropWhile_cons, not_isWhitespace_of_isDigit (hl c List.mem_cons_self)]; rfl
  rw [trimmed, hkept digits h, hkept digits.reverse (by simpa using h), List.reverse_reverse]

/-- **An honest delay is honored** up to the ceiling. -/
theorem parseRetryAfter_digits {seconds : ℕ} (h : seconds < 2 ^ 128) :
    parseRetryAfter (some (toString seconds)) = some (min seconds retryAfterCeilingSeconds) := by
  have hdigits : ∀ c ∈ Nat.toDigits 10 seconds, c.isDigit = true :=
    fun c hc => Nat.isDigit_of_mem_toDigits (by decide) (by decide) hc
  have hhead : (Nat.toDigits 10 seconds).head? ≠ some '+' := by
    intro hplus
    have := hdigits '+' (List.mem_of_mem_head? hplus)
    simp at this
  have htext : (toString seconds).toList = Nat.toDigits 10 seconds := by
    simp [Nat.repr]
  have hparsed : parseU128 (trimmed (toString seconds).toList) = some seconds := by
    rw [htext, trimmed_digits hdigits, parseU128]
    simp only [if_neg hhead, Nat.ofDigitChars_ten_toDigits]
    exact if_pos ⟨Nat.toDigits_ne_nil, List.all_eq_true.mpr hdigits, h⟩
  rw [parseRetryAfter, Option.bind_some, hparsed, Option.map_some]
  have hceiling : retryAfterCeilingSeconds ≤ U64.max := by decide
  congr 1
  split <;> omega

/-! ## The adapter -/

/-- `muon::ProtonResponse`. -/
structure CatalogResponse where
  status : ℕ
  /-- The error of `ok()`, if it refuses the status. -/
  refusal : Option String
  /-- The value of `Retry-After`, if there is one and it reads as text. -/
  retryAfter : Option String
  etag : Option String
  body : ByteArray

/-- `CatalogFetch`. -/
inductive CatalogFetch where
  | changed (etag : Option String) (body : ByteArray)
  | notModified

/-- What a fetch can fail with. -/
inductive CatalogApiError where
  | rateLimited (retryAfterSeconds : Option ℕ)
  | transport (message : String)

/-- `MuonCatalog::fetch`: what it makes of the answer of the upstream. -/
def MuonCatalog.fetch (sent : Except String CatalogResponse) :
    Except CatalogApiError CatalogFetch :=
  match sent with
  | .error e => .error (.transport ("catalog transport failure: " ++ e))
  | .ok res =>
    if res.status = 429 ∨ res.status = 503 then
    .error (.rateLimited (parseRetryAfter res.retryAfter))
    else
      match res.refusal with
      | some err => .error (.transport
          ("catalog endpoint refused: HTTP " ++ toString res.status ++ " (" ++ err ++ ")"))
      | none => if res.status = 304 then .ok .notModified else .ok (.changed res.etag res.body)

/-- `bridge_fetch`. -/
def bridgeFetch : Except CatalogApiError CatalogFetch → Except FetchFailure FetchOutcome
  | .ok (.changed etag body) => .ok (.changed etag body)
  | .ok .notModified => .ok .notModified
  | .error (.rateLimited retryAfterSeconds) => .error (.rateLimited retryAfterSeconds)
  | .error (.transport message) => .error (.transport ("transport failure: " ++ message))

/-- `CatalogService::fetch`; `none`: no adapter is installed. -/
def CatalogService.fetch (adapter : Option (Except String CatalogResponse)) :
    Except FetchFailure FetchOutcome :=
  match adapter with
  | some sent => bridgeFetch (MuonCatalog.fetch sent)
  | none =>
    .error (.transport "no catalog adapter installed (the session engine wiring owns this slot)")

/-- **No answer of the upstream is heard as a delay above the ceiling.** -/
theorem retryAfter_fetch_le {adapter : Option (Except String CatalogResponse)} {seconds : ℕ}
    (h : retryAfter (CatalogService.fetch adapter) = some seconds) :
    seconds ≤ retryAfterCeilingSeconds := by
  unfold CatalogService.fetch at h
  split at h
  · next sent =>
    unfold MuonCatalog.fetch at h
    split at h
    · simp [bridgeFetch, retryAfter] at h
    · next res =>
      split at h
      · exact parseRetryAfter_le h
      · split at h
        · simp [bridgeFetch, retryAfter] at h
        · split at h <;> simp [bridgeFetch, retryAfter] at h
  · simp [retryAfter] at h

end ProtonWire
