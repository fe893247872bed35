import ConductorRs.Core.RollupBoostHealth

/-!
The body that the probe of rollup-boost reads.

The loop takes the bytes of the chunks up to the limit, whatever the chunks are. It
asks for one chunk more than it needs, so an error just behind the last byte of the
limit still fails it, unless an empty chunk comes between.
-/
namespace ConductorRs.RollupBoost

section
variable {error : Option HttpError} {body chunk : List UInt8} (rest : List (List UInt8))

theorem readChunks_full (h : body.length = maxHealthResponseBytes) :
    readChunks error body (chunk :: rest) = .ok body := by
  have hremaining : maxHealthResponseBytes - body.length = 0 := by omega
  rw [readChunks, if_pos hremaining]

theorem readChunks_fits (h : body.length < maxHealthResponseBytes)
    (hfits : (body ++ chunk).length ≤ maxHealthResponseBytes) :
    readChunks error body (chunk :: rest) = readChunks error (body ++ chunk) rest := by
  rw [List.length_append] at hfits
  have hremaining : ¬ maxHealthResponseBytes - body.length = 0 := by omega
  have hchunk : chunk.length ≤ maxHealthResponseBytes - body.length := by omega
  rw [readChunks, if_neg hremaining, if_pos hchunk]

theorem readChunks_crosses (h : body.length < maxHealthResponseBytes)
    (hcrosses : maxHealthResponseBytes < (body ++ chunk).length) :
    readChunks error body (chunk :: rest) = .ok ((body ++ chunk).take maxHealthResponseBytes) := by
  rw [List.length_append] at hcrosses
  have hremaining : ¬ maxHealthResponseBytes - body.length = 0 := by omega
  have hchunk : ¬ chunk.length ≤ maxHealthResponseBytes - body.length := by omega
  rw [readChunks, if_neg hremaining, if_neg hchunk, List.take_append,
    List.take_of_length_le (Nat.le_of_lt h)]

end

/-- Everything that arrives, up to the limit. -/
def limited (body : List UInt8) (chunks : List (List UInt8)) : List UInt8 :=
  (body ++ chunks.flatten).take maxHealthResponseBytes

theorem limited_cons (body chunk : List UInt8) (rest : List (List UInt8)) :
    limited body (chunk :: rest) = limited (body ++ chunk) rest := by
  rw [limited, limited, List.flatten_cons, List.append_assoc]

theorem limited_of_le {body : List UInt8} (h : maxHealthResponseBytes ≤ body.length)
    (chunks : List (List UInt8)) : limited body chunks = body.take maxHealthResponseBytes :=
  List.take_append_of_le_length h

theorem readChunks_short (error : Option HttpError) {body : List UInt8}
    {chunks : List (List UInt8)}
    (h : (body ++ chunks.flatten).length < maxHealthResponseBytes) :
    readChunks error body chunks = endOfBody error (body ++ chunks.flatten) := by
  induction chunks generalizing body with
  | nil => rw [readChunks, List.flatten_nil, List.append_nil]
  | cons chunk rest ih =>
      rw [List.flatten_cons, ← List.append_assoc] at h ⊢
      have hchunk := (List.prefix_append (body ++ chunk) rest.flatten).length_le
      have hbody := (List.prefix_append body chunk).length_le
      rw [readChunks_fits rest (by omega) (by omega)]
      exact ih h

/-- The bytes up to the limit are read, or there is an error at the end; then the
limit has not been reached, or it has been by the last chunk. -/
theorem readChunks_cases (error : Option HttpError) {body : List UInt8}
    {chunks : List (List UInt8)} (h : body.length ≤ maxHealthResponseBytes) :
    readChunks error body chunks = .ok (limited body chunks) ∨
    ∃ err, error = some err ∧ readChunks error body chunks = .error (.http err) ∧
      (body ++ chunks.flatten).length ≤ maxHealthResponseBytes ∧
      ((body ++ chunks.flatten).length = maxHealthResponseBytes → chunks.getLast? ≠ some []) := by
  induction chunks generalizing body with
  | nil =>
      rw [readChunks, List.flatten_nil, List.append_nil]
      cases error with
      | none => exact .inl (by rw [limited, List.flatten_nil, List.append_nil,
          List.take_of_length_le h, endOfBody])
      | some err => exact .inr ⟨err, rfl, rfl, h, fun _ => nofun⟩
  | cons chunk rest ih =>
      rw [limited_cons, List.flatten_cons, ← List.append_assoc]
      rcases Nat.lt_or_eq_of_le h with hlt | hfull
      · rcases Nat.lt_or_ge maxHealthResponseBytes (body ++ chunk).length with hcross | hfits
        · left
          rw [readChunks_crosses rest hlt hcross, limited_of_le (Nat.le_of_lt hcross)]
        · rw [readChunks_fits rest hlt hfits]
          rcases ih hfits with hread | ⟨err, herror, hread, hle, hlast⟩
          · exact .inl hread
          · refine .inr ⟨err, herror, hread, hle, fun heq => ?_⟩
            cases rest with
            | nil =>
                -- an empty chunk does not reach the limit
                rintro hempty
                cases hempty
                rw [List.flatten_nil, List.append_nil, List.append_nil] at heq
                omega
            | cons next rest =>
                rw [List.getLast?_cons_cons]
                exact hlast heq
      · left
        have hle : maxHealthResponseBytes ≤ (body ++ chunk).length := by
          rw [List.length_append]
          omega
        rw [readChunks_full rest hfull, limited_of_le hle, List.take_append_of_le_length (by omega),
          List.take_of_length_le h]

/-- An error directly behind the chunk that fills the limit. -/
def FailsAtLimit (response : Response) : Prop :=
  response.error.isSome ∧ response.chunks.flatten.length = maxHealthResponseBytes ∧
    response.chunks.getLast? ≠ some []

theorem readLimitedBody_eq {response : Response} (h : ¬ FailsAtLimit response) :
    readLimitedBody response =
      if response.chunks.flatten.length < maxHealthResponseBytes then
        endOfBody response.error response.chunks.flatten
      else .ok (response.chunks.flatten.take maxHealthResponseBytes) := by
  unfold readLimitedBody
  by_cases hshort : response.chunks.flatten.length < maxHealthResponseBytes
  · rw [if_pos hshort]
    exact readChunks_short response.error hshort
  · rw [if_neg hshort]
    have hempty : ([] : List UInt8).length ≤ maxHealthResponseBytes := Nat.zero_le _
    rcases readChunks_cases response.error hempty with hread | ⟨err, herror, -, hle, hlast⟩
    · exact hread
    · have htotal := Nat.le_antisymm hle (Nat.le_of_not_lt hshort)
      refine absurd ⟨?_, htotal, hlast htotal⟩ h
      rw [herror]
      rfl

/-- What the probe makes of the body depends on its bytes up to the limit only. -/
theorem checkJson_of_response {response : Response} (h : ¬ FailsAtLimit response)
    (hstatus : response.status = 200)
    (hread : response.error = none ∨
      maxHealthResponseBytes ≤ response.chunks.flatten.length)
    (decode : List UInt8 → Except String String) :
    checkJson decode (.ok response) =
      ((decode (response.chunks.flatten.take maxHealthResponseBytes)).mapError
        .invalidResponse).bind healthOfText := by
  have hbody : readLimitedBody response =
      .ok (response.chunks.flatten.take maxHealthResponseBytes) := by
    rw [readLimitedBody_eq h]
    split
    · rename_i hshort
      rw [List.take_of_length_le (Nat.le_of_lt hshort),
        hread.resolve_right (Nat.not_le_of_lt hshort)]
      rfl
    · rfl
  have hcheck : checkJson decode (.ok response) = readLimitedBody response >>= fun body =>
      ((decode body).mapError .invalidResponse).bind healthOfText := by
    change (if response.status ≠ 200 then _ else _) = _
    rw [if_neg (not_not_intro hstatus)]
    rfl
  rw [hcheck, hbody]
  rfl

/-- The chunk that fills the limit is not the last one that is asked for. -/
theorem readChunks_failsAtLimit (err : HttpError) {body : List UInt8}
    {chunks : List (List UInt8)}
    (htotal : (body ++ chunks.flatten).length = maxHealthResponseBytes)
    (hlast : chunks.getLast? ≠ some []) :
    readChunks (some err) body chunks = .error (.http err) := by
  induction chunks generalizing body with
  | nil => rfl
  | cons chunk rest ih =>
      rw [List.flatten_cons, ← List.append_assoc] at htotal
      have hsizes : body.length + chunk.length + rest.flatten.length =
          maxHealthResponseBytes := by
        simpa only [List.length_append] using htotal
      have hrest : rest.getLast? ≠ some [] := by
        cases rest with
        | nil => simp
        | cons next rest => simpa only [List.getLast?_cons_cons] using hlast
      have hlt : body.length < maxHealthResponseBytes := by
        -- otherwise every chunk that is left is empty, and so is the last one
        by_contra hfull
        have hnone : (chunk :: rest).flatten = [] := by
          rw [List.flatten_cons, ← List.length_eq_zero_iff, List.length_append]
          omega
        refine hlast ?_
        rw [List.getLast?_eq_some_getLast (List.cons_ne_nil chunk rest)]
        exact congrArg some (List.flatten_eq_nil_iff.mp hnone _ (List.getLast_mem _))
      rw [readChunks_fits rest hlt (by rw [List.length_append]; omega)]
      exact ih htotal hrest

/-- The bytes up to the limit are returned, all of them if there are fewer and no
error, and an error if there is one before that many. -/
def ReadsLimited (response : Response) : Prop :=
  (maxHealthResponseBytes ≤ response.chunks.flatten.length →
    readLimitedBody response = .ok (response.chunks.flatten.take maxHealthResponseBytes)) ∧
  (response.chunks.flatten.length < maxHealthResponseBytes → response.error = none →
    readLimitedBody response = .ok response.chunks.flatten) ∧
  ((∃ err, readLimitedBody response = .error err) ↔
    response.error.isSome ∧ response.chunks.flatten.length < maxHealthResponseBytes)

theorem readsLimited_of_not_failsAtLimit {response : Response} (h : ¬ FailsAtLimit response) :
    ReadsLimited response := by
  have hread := readLimitedBody_eq h
  refine ⟨?_, ?_, ?_⟩
  · intro hle
    rw [hread, if_neg (Nat.not_lt_of_le hle)]
  · intro hlt hclean
    rw [hread, if_pos hlt, hclean]
    rfl
  · rw [hread]
    by_cases hlt : response.chunks.flatten.length < maxHealthResponseBytes
    · rw [if_pos hlt]
      cases response.error <;> simp [hlt, endOfBody, -List.length_flatten]
    · rw [if_neg hlt]
      simp [hlt, -List.length_flatten]

theorem not_readsLimited_of_failsAtLimit {response : Response} (h : FailsAtLimit response) :
    ¬ ReadsLimited response := by
  rintro ⟨hfull, -, -⟩
  obtain ⟨herror, htotal, hlast⟩ := h
  obtain ⟨err, herr⟩ := Option.isSome_iff_exists.mp herror
  have hread : readLimitedBody response = .error (.http err) := by
    rw [readLimitedBody, herr]
    exact readChunks_failsAtLimit err htotal hlast
  rw [hfull (Nat.le_of_eq htotal.symm)] at hread
  cases hread

/-- The reader does what it should exactly when no error comes right at the limit, and
then the chunks in which the bytes arrive make no difference. -/
theorem limited_body_iff (response : Response) :
    (ReadsLimited response ↔ ¬ FailsAtLimit response) ∧
    (¬ FailsAtLimit response → ∀ other, ¬ FailsAtLimit other → other.error = response.error →
      other.chunks.flatten = response.chunks.flatten →
      readLimitedBody other = readLimitedBody response) := by
  refine ⟨⟨fun hreads hfails => not_readsLimited_of_failsAtLimit hfails hreads,
    readsLimited_of_not_failsAtLimit⟩, ?_⟩
  intro h other hother herror hbytes
  rw [readLimitedBody_eq h, readLimitedBody_eq hother, herror, hbytes]

def filling : List UInt8 := List.replicate maxHealthResponseBytes 0

theorem length_filling : filling.length = maxHealthResponseBytes := List.length_replicate

theorem trailing_chunk_read :
    readLimitedBody ⟨200, [filling, []], some "connection reset"⟩ = .ok filling := by
  have hbytes : [filling, []].flatten = filling := by simp
  have hreads := (limited_body_iff ⟨200, [filling, []], some "connection reset"⟩).1.mpr
    fun h => absurd rfl h.2.2
  unfold ReadsLimited at hreads
  dsimp only at hreads
  rw [hbytes, length_filling] at hreads
  rw [hreads.1 (Nat.le_refl _), ← length_filling, List.take_length]

/-- All bytes of the limit arrive, and the error behind them is returned. -/
theorem full_body_refused :
    maxHealthResponseBytes ≤ [filling].flatten.length ∧
      readLimitedBody ⟨200, [filling], some "connection reset"⟩ =
        .error (.http "connection reset") := by
  have hfits : ([] ++ filling).length ≤ maxHealthResponseBytes :=
    Nat.le_of_eq length_filling
  have hlimit : ([] : List UInt8).length < maxHealthResponseBytes := by decide
  constructor
  · rw [List.flatten_singleton, length_filling]
  · rw [readLimitedBody, readChunks_fits _ hlimit hfits]
    rfl

end ConductorRs.RollupBoost
