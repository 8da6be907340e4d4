import FlowHub.Python.Json
import Mathlib.Data.Rat.Encodable
import Mathlib.Logic.Equiv.List
import Mathlib.Data.Countable.Basic

namespace FlowHub.Python

open List

instance : Countable Float64 := by
  have hinj : Function.Injective fun x : Float64 => match x with
      | .finite x => (Sum.inl x : FiniteDouble ⊕ Option Bool)
      | .infinite negative => Sum.inr (some negative)
      | .nan => Sum.inr none := by
    intro a b h
    cases a <;> cases b <;> simp_all
  exact hinj.countable

namespace Json

noncomputable def floatCode : Float64 → Nat := (exists_injective_nat Float64).choose

theorem floatCode_injective : Function.Injective floatCode :=
  (exists_injective_nat Float64).choose_spec

def textCode (s : String) : Nat := Encodable.encode (s.toList.map Char.toNat)

theorem textCode_injective : Function.Injective textCode := by
  intro s t h
  have hlist := Encodable.encode_injective h
  have hchar : Function.Injective Char.toNat := fun a b hab => Char.toNat_inj.mp hab
  exact String.toList_inj.mp (map_injective_iff.mpr hchar hlist)

mutual

/-- A code of documents in which none is the beginning of another. -/
noncomputable def code : Json → List Nat
  | .null => [0]
  | .bool b => [1, b.toNat]
  | .int n => [2, Encodable.encode n]
  | .float x => [3, floatCode x]
  | .str s => [4, textCode s]
  | .arr items => 5 :: items.length :: codeItems items
  | .obj fields => 6 :: fields.length :: codeFields fields

noncomputable def codeItems : List Json → List Nat
  | [] => []
  | item :: rest => code item ++ codeItems rest

noncomputable def codeFields : List (String × Json) → List Nat
  | [] => []
  | (key, value) :: rest => textCode key :: (code value ++ codeFields rest)

end

mutual

theorem code_append : ∀ (a b : Json) {xs ys : List Nat}, code a ++ xs = code b ++ ys → a = b ∧ xs = ys
  | .null, b, xs, ys, h => by
    cases b <;> simp_all [code]
  | .bool c, b, xs, ys, h => by
    cases b with
    | bool d =>
      simp only [code, cons_append, nil_append, cons.injEq, true_and] at h
      exact ⟨congrArg Json.bool (by cases c <;> cases d <;> simp_all), h.2⟩
    | _ => simp [code] at h
  | .int n, b, xs, ys, h => by
    cases b with
    | int m =>
      simp only [code, cons_append, nil_append, cons.injEq, true_and] at h
      exact ⟨congrArg Json.int (Encodable.encode_injective h.1), h.2⟩
    | _ => simp [code] at h
  | .float x, b, xs, ys, h => by
    cases b with
    | float y =>
      simp only [code, cons_append, nil_append, cons.injEq, true_and] at h
      exact ⟨congrArg Json.float (floatCode_injective h.1), h.2⟩
    | _ => simp [code] at h
  | .str s, b, xs, ys, h => by
    cases b with
    | str t =>
      simp only [code, cons_append, nil_append, cons.injEq, true_and] at h
      exact ⟨congrArg Json.str (textCode_injective h.1), h.2⟩
    | _ => simp [code] at h
  | .arr items, b, xs, ys, h => by
    cases b with
    | arr items' =>
      simp only [code, cons_append, cons.injEq, true_and] at h
      obtain ⟨rfl, hrest⟩ := codeItems_append items items' h.1 h.2
      exact ⟨rfl, hrest⟩
    | _ => simp [code] at h
  | .obj fields, b, xs, ys, h => by
    cases b with
    | obj fields' =>
      simp only [code, cons_append, cons.injEq, true_and] at h
      obtain ⟨rfl, hrest⟩ := codeFields_append fields fields' h.1 h.2
      exact ⟨rfl, hrest⟩
    | _ => simp [code] at h

theorem codeItems_append : ∀ (as bs : List Json) {xs ys : List Nat}, as.length = bs.length →
    codeItems as ++ xs = codeItems bs ++ ys → as = bs ∧ xs = ys
  | [], [], _, _, _, h => ⟨rfl, h⟩
  | a :: as, b :: bs, xs, ys, hlength, h => by
    simp only [codeItems, append_assoc] at h
    obtain ⟨rfl, hrest⟩ := code_append a b h
    obtain ⟨rfl, hlast⟩ := codeItems_append as bs (by simpa using hlength) hrest
    exact ⟨rfl, hlast⟩

theorem codeFields_append : ∀ (as bs : List (String × Json)) {xs ys : List Nat},
    as.length = bs.length → codeFields as ++ xs = codeFields bs ++ ys → as = bs ∧ xs = ys
  | [], [], _, _, _, h => ⟨rfl, h⟩
  | (key, a) :: as, (key', b) :: bs, xs, ys, hlength, h => by
    simp only [codeFields, cons_append, append_assoc, cons.injEq] at h
    have hkey := textCode_injective h.1
    subst hkey
    obtain ⟨rfl, hrest⟩ := code_append a b h.2
    obtain ⟨rfl, hlast⟩ := codeFields_append as bs (by simpa using hlength) hrest
    exact ⟨rfl, hlast⟩

end

/-- A number as a text. -/
def tally (n : Nat) : String := String.ofList (List.replicate n '1')

theorem tally_injective : Function.Injective tally := by
  intro n m h
  have hlist := congrArg (fun s => s.toList.length) h
  simpa [tally] using hlist

end Json

/-- A hashing in which no two documents collide. -/
noncomputable def exactHashing : Hashing where
  text s := s
  json document := Json.tally (Encodable.encode document.code)

theorem exactHashing_injective : Function.Injective exactHashing.json := by
  intro a b h
  have hcode := Encodable.encode_injective (Json.tally_injective h)
  exact (Json.code_append a b (congrArg (· ++ []) hcode)).1

end FlowHub.Python
