import Mathlib
import ProtonWire.Lib.Replace
import ProtonWire.Lib.StableSort

/-!
# Redaction of log lines

`crates/core/src/redact.rs`: the registry of live secret values, and `scrub`, which replaces them in
a line, the longest first.

* `registerOwned`, `liveSecrets`, `scrub`;
* `copies`: the output of `scrub`, each character with the position of the input it is copied from;
* `Inside`: a position that lies in an occurrence of a live secret;
* `Clean`: no such position is copied to the output;
* `pieces`: the input with the occurrences that the rounds take, the longest secret first and each
  from the left, where an occurrence that touches one taken before is passed over;
* `Undisturbed`: no round takes a character of a placeholder;
* **`scrub_clean_iff`**: then a line is clean exactly if the taken occurrences cover all of them;
* **`undisturbed_of_clear`**: it is enough that the secrets after the first share no text with the
  placeholder;
* **`overlap_left_over`**: where two secrets overlap, the end of the second is left in the output.
-/

namespace ProtonWire

/-- `REDACTED`. -/
def redacted : String := "[redacted]"

/-- `MIN_SECRET_LEN`, in bytes. -/
def minSecretLen : ℕ := 4

/-- A value that the registry accepts. -/
structure Secret where
  value : String
  long : minSecretLen ≤ value.utf8ByteSize

/-- An entry of the registry: a weak reference, and the handles that keep its value alive. -/
structure WeakSecret where
  secret : Secret
  strongCount : ℕ

/-- `register_owned`: prunes the dead entries; a short value is not registered. -/
def registerOwned (registry : List WeakSecret) (value : String) : List WeakSecret :=
  if long : minSecretLen ≤ value.utf8ByteSize then
    (registry.filter fun weak => decide (0 < weak.strongCount)) ++ [⟨⟨value, long⟩, 1⟩]
  else registry

/-- The values that are alive. -/
def liveSecrets (registry : List WeakSecret) : List Secret :=
  (registry.filter fun weak => decide (0 < weak.strongCount)).map (·.secret)

/-- Registration keeps what is alive. -/
theorem liveSecrets_registerOwned (registry : List WeakSecret) (value : String)
    (long : minSecretLen ≤ value.utf8ByteSize) :
    liveSecrets (registerOwned registry value) = liveSecrets registry ++ [⟨value, long⟩] := by
  simp [liveSecrets, registerOwned, long]

namespace Secret

def chars (secret : Secret) : List Char := secret.value.toList

theorem chars_ne_nil (secret : Secret) : secret.chars ≠ [] := by
  intro hnil
  have hempty : secret.value = "" := String.toList_eq_nil_iff.mp hnil
  have := secret.long
  rw [hempty, String.utf8ByteSize_empty] at this
  exact absurd this (by decide)

end Secret

/-- `sort_by_key(|secret| Reverse(secret.len()))`. -/
def longestFirst (secrets : List Secret) : List Secret :=
  StableSort.sortKey (fun secret => OrderDual.toDual secret.value.utf8ByteSize) secrets

/-- The loop of `scrub`: whether a secret occurs is asked of the input, and it is replaced in the
text of the rounds before. -/
def scrubText {α : Type} (key : α → Char) (replacement : List α) (input : List Char)
    (secrets : List Secret) (text : List α) : List α :=
  secrets.foldl
    (fun text secret =>
      if secret.chars <:+: input then Replace.replaceAll key secret.chars replacement text
      else text)
    text

/-- `scrub`. -/
def scrub (registry : List WeakSecret) (input : String) : String :=
  String.ofList (scrubText id redacted.toList input.toList (longestFirst (liveSecrets registry))
    input.toList)

/-! ## What is copied -/

/-- The output of `scrub`, each character with the position of the input it is copied from. -/
def copies (registry : List WeakSecret) (input : String) : List (Char × Option ℕ) :=
  scrubText Prod.fst (redacted.toList.map
    (·, none)) input.toList (longestFirst (liveSecrets registry))
    (input.toList.zipIdx.map fun p => (p.1, some p.2))

theorem scrubText_append_singleton {α : Type} (key : α → Char) (replacement : List α)
    (input : List Char) (secrets : List Secret) (secret : Secret) (text : List α) :
    scrubText key replacement input (secrets ++ [secret]) text =
      if secret.chars <:+: input then
        Replace.replaceAll key secret.chars replacement
          (scrubText key replacement input secrets text)
      else scrubText key replacement input secrets text := by
  rw [scrubText, List.foldl_append, List.foldl_cons, List.foldl_nil]
  rfl

theorem map_scrubText {α : Type} (key : α → Char) (replacement : List α) (input : List Char)
    (secrets : List Secret) (text : List α) :
    (scrubText key replacement input secrets text).map key =
      scrubText id (replacement.map key) input secrets (text.map key) := by
  induction secrets generalizing text with
  | nil => rfl
  | cons secret secrets ih =>
    rw [scrubText, List.foldl_cons, ← scrubText, ih, scrubText, scrubText, List.foldl_cons]
    congr 1
    split
    · exact Replace.map_replaceAll key id replacement text
    · rfl

/-- The characters of `copies` are the output. -/
theorem map_copies (registry : List WeakSecret) (input : String) :
    (copies registry input).map Prod.fst = (scrub registry input).toList := by
  rw [copies, map_scrubText, scrub, String.toList_ofList, List.map_map, List.map_map]
  congr 1
  exact List.zipIdx_map_fst 0 input.toList

theorem mem_scrubText {α : Type} {key : α → Char} {replacement : List α} {input : List Char}
    {secrets : List Secret} {text : List α} {a : α}
    (h : a ∈ scrubText key replacement input secrets text) :
    a ∈ replacement ∨ a ∈ text := by
  induction secrets generalizing text with
  | nil => exact .inr h
  | cons secret secrets ih =>
    rw [scrubText, List.foldl_cons, ← scrubText] at h
    rcases ih h with hmem | hmem
    · exact .inl hmem
    · split at hmem
      · exact Replace.mem_replaceAll hmem
      · exact .inr hmem

/-- What is copied is in the input, at the position it is copied from. -/
theorem copies_getElem? {registry : List WeakSecret} {input : String} {c : Char} {i : ℕ}
    (h : (c, some i) ∈ copies registry input) : input.toList[i]? = some c := by
  rcases mem_scrubText h with hmem | hmem
  · simp at hmem
  · obtain ⟨⟨c', j⟩, hzip, heq⟩ := List.mem_map.mp hmem
    cases heq
    exact List.mem_zipIdx_iff_getElem?.mp hzip

/-- Position `i` of the input lies in an occurrence of a live secret. -/
def Inside (registry : List WeakSecret) (input : String) (i : ℕ) : Prop :=
  ∃ secret ∈ liveSecrets registry, ∃ k,
    secret.chars <+: input.toList.drop k ∧ k ≤ i ∧ i < k + secret.chars.length

/-- No character that lies in an occurrence of a live secret is copied into the output. -/
def Clean (registry : List WeakSecret) (input : String) : Prop :=
  ∀ i, Inside registry input i → ∀ c, (c, some i) ∉ copies registry input

/-! ## What is taken -/

/-- The secrets in the order of the loop. -/
def rounds (registry : List WeakSecret) : List Secret := longestFirst (liveSecrets registry)

/-- The input in pieces: the occurrences of the secrets, each taken where it touches none taken
before. -/
def pieces (secrets : List Secret) (input : String) : List (Char ⊕ List Char) :=
  secrets.foldl (fun pieces secret => Replace.takeAll secret.chars pieces) (input.toList.map .inl)

/-- The occurrences that are taken cover every occurrence. -/
def Covered (registry : List WeakSecret) (input : String) : Prop :=
  ∀ i, Inside registry input i → (Replace.taken (pieces (rounds registry) input))[i]? = some true

/-- With the occurrences taken before under placeholders, no round takes a character of a
placeholder. -/
def Undisturbed (registry : List WeakSecret) (input : String) : Prop :=
  ∀ k < (rounds registry).length, ∀ secret ∈ (rounds registry)[k]?, secret.chars <:+: input.toList →
    Replace.Intact secret.chars redacted.toList (pieces ((rounds registry).take k) input)

/-- No secret whose round comes after the round of another one that occurs in the input has text in
common with the placeholder. -/
def Clear (registry : List WeakSecret) (input : String) : Prop :=
  ∀ k < (rounds registry).length, ∀ secret ∈ (rounds registry)[k]?, secret.chars <:+: input.toList →
    (∃ earlier ∈ (rounds registry).take k, earlier.chars <:+: input.toList) →
      Replace.Apart secret.chars redacted.toList

theorem original_pieces (secrets : List Secret) (input : String) :
    Replace.original (pieces secrets input) = input.toList := by
  have hfold : ∀ start, Replace.original
      (secrets.foldl (fun pieces secret => Replace.takeAll secret.chars pieces) start) =
        Replace.original start := by
    intro start
    induction secrets generalizing start with
    | nil => rfl
    | cons secret secrets ih =>
      rw [List.foldl_cons, ih, Replace.original_takeAll secret.chars_ne_nil]
  rw [pieces, hfold, Replace.original_map_inl]

theorem pieces_append_singleton (secrets : List Secret) (secret : Secret) (input : String) :
    pieces (secrets ++ [secret]) input =
      if secret.chars <:+: input.toList then Replace.takeAll secret.chars (pieces secrets input)
      else pieces secrets input := by
  rw [pieces, List.foldl_append, ← pieces, List.foldl_cons, List.foldl_nil]
  split
  · rfl
  next hin => exact Replace.takeAll_of_not_infix (by rwa [original_pieces])

theorem pieces_of_none {secrets : List Secret} {input : String}
    (h : ∀ secret ∈ secrets, ¬ secret.chars <:+: input.toList) :
    pieces secrets input = input.toList.map .inl := by
  induction secrets using List.reverseRecOn with
  | nil => rfl
  | append_singleton secrets secret ih =>
    rw [pieces_append_singleton, if_neg (h secret (by simp)),
      ih fun s hs => h s (List.mem_append_left _ hs)]

/-- **The rounds of the loop**, as long as none takes a character of a placeholder. -/
theorem scrubText_eq_rendered {registry : List WeakSecret} {input : String}
    (h : Undisturbed registry input) {k : ℕ} (hk : k ≤ (rounds registry).length) :
    scrubText Prod.fst (redacted.toList.map (·, none)) input.toList ((rounds registry).take k)
        (input.toList.zipIdx.map fun p => (p.1, some p.2)) =
      Replace.rendered redacted.toList 0 (pieces ((rounds registry).take k) input) := by
  induction k with
  | zero => exact (Replace.rendered_start 0 input.toList).symm
  | succ k ih =>
    have hlt : k < (rounds registry).length := hk
    have hget : (rounds registry)[k]? = some (rounds registry)[k] := List.getElem?_eq_getElem hlt
    rw [List.take_succ_eq_append_getElem hlt, pieces_append_singleton, scrubText_append_singleton,
      ih (by omega)]
    split
    next hin =>
      exact Replace.replaceAll_rendered (Secret.chars_ne_nil _) (by decide) (h k hlt _ hget hin)
    next => rfl

/-- **Secrets apart from the placeholder disturb no round**; of the first that occurs nothing is
asked. -/
theorem undisturbed_of_clear {registry : List WeakSecret} {input : String}
    (h : Clear registry input) : Undisturbed registry input := by
  intro k hk secret hget hin
  by_cases hearlier : ∃ earlier ∈ (rounds registry).take k, earlier.chars <:+: input.toList
  · exact Replace.intact_of_apart (h k hk secret hget hin hearlier) _
  · rw [pieces_of_none fun s hs hin => hearlier ⟨s, hs, hin⟩]
    exact Replace.intact_start input.toList

theorem Inside.lt {registry : List WeakSecret} {input : String} {i : ℕ}
    (h : Inside registry input i) :
    i < input.toList.length := by
  obtain ⟨secret, -, k, hpre, hki, hik⟩ := h
  have := hpre.length_le
  rw [List.length_drop] at this
  omega

instance (registry : List WeakSecret) (input : String) (i : ℕ) :
    Decidable (Inside registry input i) :=
  decidable_of_iff
    (∃ secret ∈ liveSecrets registry, ∃ k ≤ i,
      secret.chars <+: input.toList.drop k ∧ i < k + secret.chars.length)
    (exists_congr fun _ => and_congr_right fun _ => exists_congr fun _ =>
      ⟨fun ⟨hki, hpre, hik⟩ => ⟨hpre, hki, hik⟩, fun ⟨hpre, hki, hik⟩ => ⟨hki, hpre, hik⟩⟩)

instance (registry : List WeakSecret) (input : String) : Decidable (Covered registry input) :=
  decidable_of_iff
    (∀ i < input.toList.length, Inside registry input i →
      (Replace.taken (pieces (rounds registry) input))[i]? = some true)
    ⟨fun h i hin => h i hin.lt hin, fun h i _ hin => h i hin⟩

instance (registry : List WeakSecret) (input : String) : Decidable (Undisturbed registry input) :=
  inferInstanceAs (Decidable (∀ k < (rounds registry).length, ∀ secret ∈ (rounds registry)[k]?,
    secret.chars <:+: input.toList →
      Replace.Intact secret.chars redacted.toList (pieces ((rounds registry).take k) input)))

/-- **Nothing of a secret is left over** exactly if the occurrences that are taken cover all of
them. -/
theorem scrub_clean_iff (registry : List WeakSecret) (input : String)
    (hundisturbed : Undisturbed registry input) :
    Clean registry input ↔ Covered registry input := by
  have hrun := scrubText_eq_rendered hundisturbed le_rfl
  rw [List.take_length, rounds, ← copies] at hrun
  refine forall_congr' fun i => forall_congr' fun hin => ?_
  have hcopied := (@Replace.mem_rendered Char redacted.toList 0
    (pieces (rounds registry) input)).2 i
  rw [rounds, ← hrun, Nat.zero_add] at hcopied
  have hlen : i < (Replace.taken (pieces (rounds registry) input)).length := by
    rw [Replace.length_taken, original_pieces]
    exact hin.lt
  have hnot := not_congr hcopied
  rw [not_exists] at hnot
  rw [hnot, ← rounds, List.getElem?_eq_getElem hlen, Option.some_inj, Option.some_inj,
    Bool.not_eq_false]

/-- Three secrets, the last of which ends as the placeholder begins. -/
def edged :
    List WeakSecret := registerOwned (registerOwned (registerOwned [] "abcdef") "defghi") "pass["

/-- A line in which `pass[` stands apart from the placeholders before it. -/
theorem scrub_clean_edged :
    Undisturbed edged "abcdefxdefghipass[" ∧ Covered edged "abcdefxdefghipass[" ∧
      Clean edged "abcdefxdefghipass[" := by
  have hundisturbed : Undisturbed edged "abcdefxdefghipass[" := by decide
  have hcovered : Covered edged "abcdefxdefghipass[" := by decide
  exact ⟨hundisturbed, hcovered, (scrub_clean_iff edged _ hundisturbed).mpr hcovered⟩

/-- Two secrets that overlap in the line. -/
def overlapping : List WeakSecret := registerOwned (registerOwned [] "abcdef") "defghi"

/-- **The end of a secret is left over** where it overlaps another: `ghi` is copied. -/
theorem overlap_left_over :
    scrub overlapping "abcdefghi" = "[redacted]ghi" ∧ ¬ Clean overlapping "abcdefghi" := by
  have hinside : Inside overlapping "abcdefghi" 6 := by decide
  have hcopied : ('g', some 6) ∈ copies overlapping "abcdefghi" := by decide
  exact ⟨by decide, fun hclean => hclean 6 hinside 'g' hcopied⟩

end ProtonWire
