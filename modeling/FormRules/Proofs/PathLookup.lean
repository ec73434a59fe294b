import FormRules.Context.Basic
import FormRules.Proofs.KeyedEntries

/-! Walking along dotted paths: the segments of a path, what is nowhere to be found, and how a context shows
what is there. -/

namespace FormRules

theorem Text.eq_of_splitChars {mark : Char} {chars part : List Char} (whole : splitChars mark chars = [part]) :
    chars = part := by
  induction chars generalizing part with
  | nil => exact List.singleton_inj.mp whole
  | cons c rest ih =>
    unfold splitChars at whole
    split at whole
    next => exact absurd (List.cons.inj whole).2 (splitChars_ne_nil mark rest)
    next =>
      split at whole
      next none => exact absurd none (splitChars_ne_nil mark rest)
      next part parts some =>
        obtain ⟨rfl, rfl⟩ := List.cons.inj whole
        rw [ih some]

namespace Path

theorem eq_of_segments {path segment : String} (whole : segments path = [segment]) : path = segment := by
  obtain ⟨part, split, rfl⟩ := List.map_eq_singleton_iff.mp whole
  rw [← Text.eq_of_splitChars split, String.ofList_toList]

theorem segments_ne_nil (path : String) : segments path ≠ [] :=
  fun none => Text.splitChars_ne_nil '.' _ (List.map_eq_nil_iff.mp none)

theorem walk?_object_cons (fields : Fields) (segment : String) (more : List String) :
    walk? (.object fields) (segment :: more) =
      match Keyed.find? fields (.text segment) with
      | some inner => walk? inner more
      | none => .ok none := by
  have step : step? (.object fields) segment = .ok (Keyed.find? fields (.text segment)) := rfl
  rw [walk?, step]
  cases Keyed.find? fields (.text segment) <;> rfl

theorem walk?_empty (path : String) : walk? (.object []) (segments path) = .ok none := by
  cases split : segments path with
  | nil => exact absurd split (segments_ne_nil path)
  | cons segment more => exact walk?_object_cons [] segment more

theorem walk?_absent {path name text : String} (apart : path ≠ name) :
    walk? (.object [(.text name, .text text)]) (segments path) = .ok none := by
  cases split : segments path with
  | nil => exact absurd split (segments_ne_nil path)
  | cons segment more =>
    rw [walk?_object_cons, Keyed.find?_cons, Scalar.coincides_text]
    by_cases here : name = segment
    · rw [if_pos (beq_iff_eq.mpr here)]
      cases more with
      | nil => exact absurd ((eq_of_segments split).trans here.symm) apart
      | cons next more => rfl
    · rw [if_neg (by simpa using here)]
      rfl

end Path

namespace Context

def has (context : Context) (field : Value) : Except Fault Bool := (context.find? field).map (·.isSome)

theorem value_eq_find? (context : Context) (field : Value) :
    context.value field = (context.find? field).map (·.getD .null) := by
  unfold value source Source.document find?
  cases field.asText "split" with
  | error fault => rfl
  | ok path =>
    show (do return (← Path.find? context.data path).getD .null) = (Path.find? context.data path).map _
    cases Path.find? context.data path <;> rfl

/-- Whether a field is there, and its value, are all that can be found. -/
theorem find?_eq {first second : Context} {field : Value} (present : first.has field = second.has field)
    (value : first.value field = second.value field) : first.find? field = second.find? field := by
  rw [value_eq_find?, value_eq_find?] at value
  unfold has at present
  cases here : first.find? field with
  | error fault =>
    cases there : second.find? field with
    | error other =>
      rw [here, there] at present
      cases present
      rfl
    | ok other? =>
      rw [here, there] at present
      cases present
  | ok found? =>
    cases there : second.find? field with
    | error fault =>
      rw [here, there] at present
      cases present
    | ok other? =>
      rw [here, there] at present value
      have present : found?.isSome = other?.isSome := Except.ok.inj present
      have value : found?.getD .null = other?.getD .null := Except.ok.inj value
      cases found? <;> cases other? <;> simp_all

end Context

end FormRules
