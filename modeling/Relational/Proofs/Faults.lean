import Relational.Proofs.Construction
import Relational.Proofs.Solving

/-!
Faults of construction. A value is scanned for all its faults: a tuple for its length first and
then from the left, a list from its end, a term among them not at all. It has a term if there are
none, and otherwise the first of them is reported. Of a document only objects are refused: the value
that it has without them is free of faults.
-/

namespace Relational

/-- The fault of what could not be made. -/
def fault? {α : Type} : Except Fault α → Option Fault
  | .ok _ => none
  | .error f => some f

lemma fault?_eq_some {α : Type} {e : Except Fault α} {f : Fault} :
    fault? e = some f ↔ e = .error f := by
  cases e <;> simp [fault?]

lemma fault?_eq_none {α : Type} {e : Except Fault α} : fault? e = none ↔ ∃ a, e = .ok a := by
  cases e <;> simp [fault?]

/-- Of two things that are made one after the other, the second is not made if the first has a
fault. -/
lemma fault?_both {α β γ : Type} (x : Except Fault α) (y : Except Fault β) (g : α → β → γ) :
    fault? (do let a ← x; let b ← y; .ok (g a b)) = (fault? x).or (fault? y) := by
  cases x <;> cases y <;> rfl

/-! ### Values -/

namespace Native

mutual

/-- All faults of a value, in the order of the scan. -/
def faults : Native → List Fault
  | .float x => if x.isFinite then [] else [.notFinite x]
  | .tuple items =>
    (if items.length = 2 then [] else [.arity items.length]) ++ (itemFaults items).flatten
  | .list items => (itemFaults items).reverse.flatten
  | .none | .bool _ | .int _ | .text _ | .term _ => []

/-- The faults of each item. -/
def itemFaults : List Native → List (List Fault)
  | [] => []
  | v :: vs => v.faults :: itemFaults vs

end

lemma itemFaults_eq_map (vs : List Native) : itemFaults vs = vs.map faults := by
  induction vs with
  | nil => rfl
  | cons v vs ih => rw [itemFaults, ih, List.map_cons]

lemma faults_tuple (vs : List Native) : (tuple vs).faults =
    (if vs.length = 2 then [] else [.arity vs.length]) ++ vs.flatMap faults := by
  rw [faults, itemFaults_eq_map, List.flatMap_def]

lemma faults_list (vs : List Native) : (list vs).faults = vs.reverse.flatMap faults := by
  rw [faults, itemFaults_eq_map, ← List.map_reverse, List.flatMap_def]

lemma faults_list_cons (v : Native) (vs : List Native) :
    (list (v :: vs)).faults = (list vs).faults ++ v.faults := by
  simp [faults_list]

mutual

lemma fault?_toTerm : (v : Native) → fault? v.toTerm = v.faults.head?
  | .none | .bool _ | .int _ | .text _ | .term _ => rfl
  | .float x => by
    rw [toTerm, faults]
    split_ifs <;> rfl
  | .tuple [] | .tuple [_] | .tuple (_ :: _ :: _ :: _) => by simp [toTerm, faults, fault?]
  | .tuple [v, w] => by
    rw [toTerm, fault?_both, fault?_toTerm v, fault?_toTerm w]
    simp [faults_tuple]
  | .list vs => by rw [toTerm, fault?_listToTerm vs]

lemma fault?_listToTerm : (vs : List Native) → fault? (listToTerm vs) = (list vs).faults.head?
  | [] => rfl
  | v :: vs => by
    have hboth := fault?_both (listToTerm vs) v.toTerm fun tail head => Term.pair head tail
    rw [listToTerm, hboth, fault?_listToTerm vs, fault?_toTerm v, faults_list_cons,
      List.head?_append]

end

/-- **Faults of values**: a value is refused exactly if the scan meets a fault, and for the first
one that it meets; without any it has the term that it denotes. -/
theorem toTerm_first_fault (v : Native) :
    (∀ f, v.toTerm = .error f ↔ v.faults.head? = some f) ∧
    ((∃ t, v.toTerm = .ok t) ↔ v.faults = []) ∧ ∀ t, v.toTerm = .ok t ↔ v.Denotes t := by
  refine ⟨fun f => ?_, ?_, fun t => toTerm_eq_ok_iff⟩
  · rw [← fault?_toTerm, fault?_eq_some]
  · rw [← fault?_eq_none, fault?_toTerm, List.head?_eq_none_iff]

/-- Here the tuple of one is met before what is in it, and before the infinity in front of it. -/
example : (list [.float (1 / 0), .tuple [.tuple [.float (0 / 0)], .tuple []],
    .tuple [.int 1, .list []]]).toTerm = .error (.arity 1) := rfl

end Native

/-! ### Documents -/

namespace Document

/-- The one document is the other or somewhere in it. -/
inductive Contains (e : Document) : Document → Prop where
  | here : Contains e e
  | item {d : Document} {ds : List Document} (hd : d ∈ ds) (h : Contains e d) :
      Contains e (.array ds)
  | field {key : String} {d : Document} {fields : List (String × Document)}
      (hd : (key, d) ∈ fields) (h : Contains e d) : Contains e (.object fields)

def HasObject (d : Document) : Prop := ∃ fields, Contains (.object fields) d

/-- A number as a float. -/
def reading? : Document → Option Float
  | .int n => some (.ofInt n)
  | .float x => some x
  | _ => none

/-- All numbers in the document are finite as floats. -/
def Finite (d : Document) : Prop := ∀ e x, Contains e d → e.reading? = some x → x.isFinite

/-- What a document without objects stands for. -/
inductive Encodes : Document → Term → Prop where
  | null : Encodes .null .empty
  | bool (b : Bool) : Encodes (.bool b) (.bool b)
  | int (n : Int64) : Encodes (.int n.toInt) (.int n)
  | wide {n : Int} (h : n < Int64.minValue.toInt ∨ Int64.maxValue.toInt < n) :
      Encodes (.int n) (.float (.ofInt n))
  | float (x : Float) : Encodes (.float x) (.float x)
  | text (s : String) : Encodes (.text s) (.text s)
  | nil : Encodes (.array []) .empty
  | cons {d : Document} {ds : List Document} {a b : Term} (head : Encodes d a)
      (tail : Encodes (.array ds) b) : Encodes (.array (d :: ds)) (.pair a b)

variable {d : Document} {ds : List Document} {v : Native} {t : Term}

lemma hasObject_array : (array ds).HasObject ↔ ∃ d ∈ ds, d.HasObject := by
  constructor
  · rintro ⟨fields, h⟩
    cases h with
    | item hd h => exact ⟨_, hd, fields, h⟩
  · rintro ⟨d, hd, fields, h⟩
    exact ⟨fields, .item hd h⟩

lemma finite_null : null.Finite := by
  intro e x he hx
  cases he
  cases hx

lemma finite_int {n : Int} : (int n).Finite ↔ (Float.ofInt n).isFinite := by
  refine ⟨fun h => h _ _ .here rfl, fun h e x he hx => ?_⟩
  cases he
  cases hx
  exact h

lemma finite_float {x : Float} : (float x).Finite ↔ x.isFinite := by
  refine ⟨fun h => h _ _ .here rfl, fun h e y he hy => ?_⟩
  cases he
  cases hy
  exact h

lemma finite_array : (array ds).Finite ↔ ∀ d ∈ ds, d.Finite := by
  constructor
  · exact fun h d hd e x he hx => h e x (.item hd he) hx
  · intro h e x he hx
    cases he with
    | here => cases hx
    | item hd he => exact h _ hd e x he hx

lemma finite_object {fields : List (String × Document)} :
    (object fields).Finite ↔ ∀ p ∈ fields, p.2.Finite := by
  constructor
  · exact fun h p hp e x he hx => h e x (.field hp he) hx
  · intro h e x he hx
    cases he with
    | here => cases hx
    | field hd he => exact h _ hd e x he hx

lemma finite_cons : (array (d :: ds)).Finite ↔ d.Finite ∧ (array ds).Finite := by
  simp [finite_array]

/-! Only objects have no value. -/

mutual

lemma fault?_toNative {f : Fault} : (d : Document) →
    (fault? d.toNative = some f ↔ f = .unsupported "object" ∧ d.HasObject)
  | .null | .bool _ | .int _ | .float _ | .text _ => by
    refine iff_of_false (by simp [toNative, fault?]) ?_
    rintro ⟨-, fields, h⟩
    cases h
  | .array ds => by
    have hboth : fault? (array ds).toNative = fault? (toNatives ds) := by
      rw [toNative]
      cases toNatives ds <;> rfl
    rw [hboth, fault?_toNatives ds, hasObject_array]
  | .object fields => by
    simp only [toNative, fault?, Option.some.injEq]
    exact ⟨fun h => ⟨h.symm, fields, .here⟩, fun h => h.1.symm⟩

lemma fault?_toNatives {f : Fault} : (ds : List Document) →
    (fault? (toNatives ds) = some f ↔ f = .unsupported "object" ∧ ∃ d ∈ ds, d.HasObject)
  | [] => by simp [toNatives, fault?]
  | d :: ds => by
    have hboth := fault?_both d.toNative (toNatives ds) fun head tail => head :: tail
    have hnone (h : ¬ d.HasObject) : fault? d.toNative = none :=
      Option.eq_none_iff_forall_ne_some.2 fun g hg => h ((fault?_toNative d).1 hg).2
    rw [toNatives, hboth, Option.or_eq_some_iff, fault?_toNative d, fault?_toNatives ds]
    by_cases h : d.HasObject
    · simp +contextual [h]
    · simp [h, hnone]

end

/-- Without objects a document has a value. -/
lemma exists_toNative : (∃ v, d.toNative = .ok v) ↔ ¬ d.HasObject := by
  rw [← fault?_eq_none, Option.eq_none_iff_forall_ne_some]
  simp [fault?_toNative]

/-! The values that documents have are free of faults. -/

lemma Denotes.exists_term (h : d.Denotes v) (hfinite : d.Finite) :
    ∃ t, v.Denotes t ∧ d.Encodes t := by
  induction h with
  | null => exact ⟨_, .none, .null⟩
  | bool b => exact ⟨_, .bool b, .bool b⟩
  | int h =>
    obtain rfl := Word.ofInt?_eq_some.1 h
    exact ⟨_, .int _, .int _⟩
  | wide h => exact ⟨_, .float (finite_int.1 hfinite), .wide (Word.ofInt?_eq_none.1 h)⟩
  | float x => exact ⟨_, .float (finite_float.1 hfinite), .float x⟩
  | text s => exact ⟨_, .text s, .text s⟩
  | nil => exact ⟨_, .nil, .nil⟩
  | cons _ _ ihd ihds =>
    obtain ⟨a, hd, ha⟩ := ihd (finite_cons.1 hfinite).1
    obtain ⟨b, hds, hb⟩ := ihds (finite_cons.1 hfinite).2
    exact ⟨_, .cons hd hds, .cons ha hb⟩

/-- What a document stands for goes through its value. -/
lemma Encodes.exists_value (h : d.Encodes t) (hfinite : d.Finite) :
    ∃ v, d.Denotes v ∧ v.Denotes t := by
  induction h with
  | null => exact ⟨_, .null, .none⟩
  | bool b => exact ⟨_, .bool b, .bool b⟩
  | int n => exact ⟨_, .int (Word.ofInt?_eq_some.2 rfl), .int n⟩
  | wide h => exact ⟨_, .wide (Word.ofInt?_eq_none.2 h), .float (finite_int.1 hfinite)⟩
  | float x => exact ⟨_, .float x, .float (finite_float.1 hfinite)⟩
  | text s => exact ⟨_, .text s, .text s⟩
  | nil => exact ⟨_, .nil, .nil⟩
  | cons _ _ ihd ihds =>
    obtain ⟨v, hd, hv⟩ := ihd (finite_cons.1 hfinite).1
    obtain ⟨w, hds, hw⟩ := ihds (finite_cons.1 hfinite).2
    obtain ⟨vs, rfl⟩ := hds.exists_list
    exact ⟨_, .cons hd hds, .cons hv hw⟩

/-- The value of a document has a term. -/
lemma exists_toTerm (hfinite : d.Finite) (hv : d.toNative = .ok v) :
    ∃ t, v.toTerm = .ok t ∧ d.Encodes t := by
  obtain ⟨t, ht, hencodes⟩ := (toNative_eq_ok_iff.1 hv).exists_term hfinite
  exact ⟨t, Native.toTerm_eq_ok_iff.2 ht, hencodes⟩

lemma fault?_toTerm (hfinite : d.Finite) : fault? d.toTerm = fault? d.toNative := by
  rw [toTerm]
  cases hv : d.toNative with
  | error f => rfl
  | ok v =>
    obtain ⟨t, ht, -⟩ := exists_toTerm hfinite hv
    exact fault?_eq_none.2 ⟨t, ht⟩

/-- **Faults of documents**: provided that its numbers are finite as floats, a document is refused
exactly if there is an object in it, and for being one; otherwise it has the term that encodes it.
So the value of a document has no faults. -/
theorem toTerm_objects (d : Document) (hfinite : d.Finite) :
    (∀ f, d.toTerm = .error f ↔ f = .unsupported "object" ∧ d.HasObject) ∧
    ((∃ t, d.toTerm = .ok t) ↔ ¬ d.HasObject) ∧ (∀ t, d.toTerm = .ok t ↔ d.Encodes t) ∧
    ∀ v, d.toNative = .ok v → v.faults = [] := by
  refine ⟨fun f => ?_, ?_, fun t => ⟨fun h => ?_, fun h => ?_⟩, fun v hv => ?_⟩
  · rw [← fault?_eq_some, fault?_toTerm hfinite, fault?_toNative]
  · rw [← fault?_eq_none, fault?_toTerm hfinite, fault?_eq_none, exists_toNative]
  · obtain ⟨v, hv, ht⟩ := bind_eq_ok.1 h
    obtain ⟨u, hu, hencodes⟩ := exists_toTerm hfinite hv
    rw [ht] at hu
    cases hu
    exact hencodes
  · exact toTerm_eq_ok_iff.2 (h.exists_value hfinite)
  · obtain ⟨t, ht, -⟩ := exists_toTerm hfinite hv
    rw [← List.head?_eq_none_iff, ← Native.fault?_toTerm, ht]
    rfl

/-- Here an object is found within an array; and integers of both kinds stand beside a float and an
empty array. -/
theorem toTerm_objects_nested :
    (Document.array [.int 1, .array [.null, .object [("a", .null)]]]).Finite ∧
    (Document.array [.int 1, .array [.null, .object [("a", .null)]]]).toTerm =
      .error (.unsupported "object") ∧
    (Document.array [.array [.int (-3), .float 2.5], .int 9223372036854775808, .array []]).Finite ∧
    (Document.array [.array [.int (-3), .float 2.5], .int 9223372036854775808, .array []]).toTerm =
      .ok (.ofList [.ofList [.int (-3), .float 2.5], .float (.ofInt 9223372036854775808),
        .empty]) := by
  have hobject : (Document.array [.int 1, .array [.null, .object [("a", .null)]]]).Finite := by
    have h : (Float.ofInt 1).isFinite := by decide +kernel
    simp [finite_array, finite_object, finite_int, finite_null, h]
  have hnumbers : (Document.array [.array [.int (-3), .float 2.5], .int 9223372036854775808,
      .array []]).Finite := by
    have h : (Float.ofInt (-3)).isFinite ∧ (2.5 : Float).isFinite ∧
        (Float.ofInt 9223372036854775808).isFinite := by decide +kernel
    simp [finite_array, finite_int, finite_float, h]
  obtain ⟨hrefused, -⟩ := toTerm_objects _ hobject
  obtain ⟨-, -, hmade, -⟩ := toTerm_objects _ hnumbers
  refine ⟨hobject, (hrefused _).2 ⟨rfl, [("a", .null)], ?_⟩, hnumbers, (hmade _).2 ?_⟩
  · exact .item (.tail _ (.head _)) (.item (.tail _ (.head _)) .here)
  · have hwide : Encodes (.int 9223372036854775808) (.float (.ofInt 9223372036854775808)) :=
      .wide (.inr (by decide))
    exact .cons (.cons (.int (-3)) (.cons (.float _) .nil)) (.cons hwide (.cons .nil .nil))

end Document

end Relational
