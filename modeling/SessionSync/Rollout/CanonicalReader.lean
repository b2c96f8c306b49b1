import SessionSync.Rollout.Restamp

set_option autoImplicit false

namespace SessionSync.Rollout

open SessionSync.Core

variable {lib : Primitives}

-- The reader that takes exactly the texts of the canonical writer.
noncomputable def canonicalReader (lib : Primitives) : Reader :=
  open Classical in
  { parse := fun body =>
      if written : ∃ value, WellFormed value ∧ canonicalJson lib value = body then .ok written.choose
      else .error "expected value"
    formed := by
      intro body value read
      split at read
      · rename_i written
        cases read
        exact written.choose_spec.1
      · cases read }

theorem canonical_reads (floats : PrintsFloats lib) (value : Value) (formed : WellFormed value) :
    (canonicalReader lib).parse (canonicalJson lib value) = .ok value := by
  have written : ∃ other, WellFormed other ∧ canonicalJson lib other = canonicalJson lib value := ⟨value, formed, rfl⟩
  have same := canonical_json_injective floats _ value written.choose_spec.1 formed written.choose_spec.2
  simp only [canonicalReader, dif_pos written, same]

theorem canonical_reparses (floats : PrintsFloats lib) : Reparses lib (canonicalReader lib) := by
  intro body value payload cwd provider parsed session
  exact canonical_reads floats _ (stamped_formed cwd provider value payload session ((canonicalReader lib).formed body value parsed))

-- A line that holds one canonical record, and what the passes read in it.
theorem canonical_record (floats : PrintsFloats lib) (value : Value) (payload : Fields) (ending : Bytes) (formed : WellFormed value)
    (session : IsSession value payload) (known : Ending ending) :
    sessionOf (canonicalReader lib) (canonicalJson lib value ++ ending) = some (value, payload) := by
  obtain ⟨fields, rfl, _⟩ := session_object value payload session
  obtain ⟨body, closed⟩ := canonical_object_closed lib fields
  rw [session_of_iff, closed, split_closed body ending known, ← closed]
  exact ⟨canonical_reads floats _ formed, session⟩

end SessionSync.Rollout
