import Dataflow.Model.Marshal

/-!
# `fmt.Sprint` of decoded values

The text of a decoded value has no quotation marks: a text stands for itself, the items of an array
and the fields of a map are separated by blanks, and the keys of a map are in order.

* `Json.printed`, `sprint`: the code.
* `eq_string_of_sprint`: which texts are those of a text only.

Source: Go's `fmt`, as the functions `stringValue` use it
-/

namespace Dataflow.Model

section printed

variable (numbers : NumberTexts)

mutual

/-- The text of a value whose maps are in order. -/
def Json.printed : Json → List Char
  | .null => "<nil>".toList
  | .bool true => "true".toList
  | .bool false => "false".toList
  | .number value => (numbers.text value).toList
  | .string text => text.toList
  | .array items => '[' :: Json.printedItems items
  | .object fields => "map[".toList ++ Json.printedFields fields

/-- The items of an array and the bracket after them. -/
def Json.printedItems : List Json → List Char
  | [] => [']']
  | item :: items => item.printed ++ Json.printedMoreItems items

/-- The items after the first one. -/
def Json.printedMoreItems : List Json → List Char
  | [] => [']']
  | item :: items => ' ' :: (item.printed ++ Json.printedMoreItems items)

/-- The fields of a map and the bracket after them. -/
def Json.printedFields : JsonMap → List Char
  | [] => [']']
  | (key, value) :: fields => key.toList ++ ':' :: (value.printed ++ Json.printedMoreFields fields)

/-- The fields after the first one. -/
def Json.printedMoreFields : JsonMap → List Char
  | [] => [']']
  | (key, value) :: fields =>
    ' ' :: (key.toList ++ ':' :: (value.printed ++ Json.printedMoreFields fields))

end

/-- Source: `fmt.Sprint`. -/
def sprint (value : Json) : String := .ofList (value.normalize.printed numbers)

end printed

section sprint

variable {numbers : NumberTexts} {value value' : Json} {word : String}

@[simp] theorem sprint_string (text : String) : sprint numbers (.string text) = text := by
  rw [sprint, Json.normalize, Json.printed, String.ofList_toList]

/-- The first character of a value that is no text. -/
def startsValue (c : Char) : Bool := isNumberChar c || c ∈ ['<', 't', 'f', '[', 'm']

/-- **A value that is no text** starts like a number, a word or a bracket. -/
theorem exists_printed_eq_cons (h : ∀ text, value ≠ .string text) :
    ∃ c rest, value.printed numbers = c :: rest ∧ startsValue c = true := by
  cases value with
  | null => exact ⟨'<', _, rfl, rfl⟩
  | bool b => cases b <;> exact ⟨_, _, rfl, rfl⟩
  | number n =>
    obtain ⟨c, rest, heq⟩ := List.exists_cons_of_ne_nil
      (fun hnil => numbers.nonempty n (String.toList_eq_nil_iff.mp hnil))
    refine ⟨c, rest, heq, ?_⟩
    rw [startsValue, numbers.chars n c (heq ▸ List.mem_cons_self), Bool.true_or]
  | string text => exact absurd rfl (h text)
  | array items => exact ⟨'[', _, rfl, rfl⟩
  | object fields => exact ⟨'m', _, rfl, rfl⟩

/-- **A word that starts like no other value** is the text of itself only. -/
theorem eq_string_of_sprint (hstart : ∀ c ∈ word.toList.head?, startsValue c = false) :
    sprint numbers value = word ↔ value = .string word := by
  constructor
  · intro h
    have hprinted : value.normalize.printed numbers = word.toList := by
      rw [← h, sprint, String.toList_ofList]
    by_cases htext : ∃ text, value.normalize = .string text
    · obtain ⟨text, htext⟩ := htext
      have hvalue : value = .string text := by
        cases value <;> simp_all [Json.normalize]
      rw [hvalue, sprint_string] at h
      rw [hvalue, h]
    · push Not at htext
      obtain ⟨d, tail, heq, hd⟩ := exists_printed_eq_cons htext
      rw [← hprinted, heq] at hstart
      simp [hd] at hstart
  · rintro rfl
    exact sprint_string word

theorem sprint_eq_empty_iff : sprint numbers value = "" ↔ value = .string "" :=
  eq_string_of_sprint (by simp)

end sprint

end Dataflow.Model
