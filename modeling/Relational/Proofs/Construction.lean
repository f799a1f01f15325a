import Mathlib.Tactic.Lemma
import Mathlib.Tactic.SplitIfs
import Relational.Document.Basic

/-!
Construction as a relation. `v.Denotes t` says that `t` is the term of the value `v`, and
`d.Denotes v` that `v` is the value of the document `d`: one rule for each kind, and for lists one
for their end and one for an item before them. The functions give just what is denoted, so what
they make is looked at by induction on the rules.
-/

namespace Relational

lemma bind_eq_ok {ε α β : Type} {e : Except ε α} {f : α → Except ε β} {b : β} :
    e >>= f = .ok b ↔ ∃ a, e = .ok a ∧ f a = .ok b := by
  cases e <;> simp [bind, Except.bind]

/-! ### Values -/

namespace Native

inductive Denotes : Native → Term → Prop where
  | none : Denotes .none .empty
  | bool (b : Bool) : Denotes (.bool b) (.bool b)
  | int (n : Int64) : Denotes (.int n) (.int n)
  | float {x : Float} (h : x.isFinite) : Denotes (.float x) (.float x)
  | text (s : String) : Denotes (.text s) (.text s)
  | pair {v w : Native} {a b : Term} (first : Denotes v a) (second : Denotes w b) :
      Denotes (.tuple [v, w]) (.pair a b)
  | nil : Denotes (.list []) .empty
  | cons {v : Native} {vs : List Native} {a b : Term} (head : Denotes v a)
      (tail : Denotes (.list vs) b) : Denotes (.list (v :: vs)) (.pair a b)
  | term (t : Term) : Denotes (.term t) t

lemma toTerm_pair_eq_ok {v w : Native} {t : Term} :
    (tuple [v, w]).toTerm = .ok t ↔
      ∃ a b, v.toTerm = .ok a ∧ w.toTerm = .ok b ∧ t = .pair a b := by
  simp only [toTerm, bind_eq_ok, Except.ok.injEq]
  grind

lemma listToTerm_cons_eq_ok {v : Native} {vs : List Native} {t : Term} :
    listToTerm (v :: vs) = .ok t ↔
      ∃ a b, v.toTerm = .ok a ∧ listToTerm vs = .ok b ∧ t = .pair a b := by
  simp only [listToTerm, bind_eq_ok, Except.ok.injEq]
  grind

mutual

lemma denotes_of_toTerm {t : Term} : (v : Native) → v.toTerm = .ok t → v.Denotes t
  | .none, h => by cases h; exact .none
  | .bool b, h => by cases h; exact .bool b
  | .int n, h => by cases h; exact .int n
  | .float x, h => by
    rw [toTerm] at h
    split_ifs at h with hx
    cases h
    exact .float hx
  | .text s, h => by cases h; exact .text s
  | .tuple [v, w], h => by
    obtain ⟨a, b, hv, hw, rfl⟩ := toTerm_pair_eq_ok.1 h
    exact .pair (denotes_of_toTerm v hv) (denotes_of_toTerm w hw)
  | .tuple [], h | .tuple [_], h | .tuple (_ :: _ :: _ :: _), h => by simp [toTerm] at h
  | .list vs, h => denotes_of_listToTerm vs (by rwa [toTerm] at h)
  | .term t, h => by cases h; exact .term t

lemma denotes_of_listToTerm {t : Term} :
    (vs : List Native) → listToTerm vs = .ok t → (list vs).Denotes t
  | [], h => by cases h; exact .nil
  | v :: vs, h => by
    obtain ⟨a, b, hv, hvs, rfl⟩ := listToTerm_cons_eq_ok.1 h
    exact .cons (denotes_of_toTerm v hv) (denotes_of_listToTerm vs hvs)

end

lemma toTerm_eq_ok_iff {v : Native} {t : Term} : v.toTerm = .ok t ↔ v.Denotes t := by
  refine ⟨denotes_of_toTerm v, fun h => ?_⟩
  induction h with
  | none | bool | int | text | nil | term => simp [toTerm, listToTerm]
  | float hx => simp [toTerm, hx]
  | pair _ _ ihv ihw => exact toTerm_pair_eq_ok.2 ⟨_, _, ihv, ihw, rfl⟩
  | cons _ _ ihv ihvs =>
    rw [toTerm] at ihvs ⊢
    exact listToTerm_cons_eq_ok.2 ⟨_, _, ihv, ihvs, rfl⟩

end Native

/-! ### Documents -/

namespace Document

inductive Denotes : Document → Native → Prop where
  | null : Denotes .null .none
  | bool (b : Bool) : Denotes (.bool b) (.bool b)
  | int {n : Int} {w : Int64} (h : Word.ofInt? n = some w) : Denotes (.int n) (.int w)
  | wide {n : Int} (h : Word.ofInt? n = none) : Denotes (.int n) (.float (.ofInt n))
  | float (x : Float) : Denotes (.float x) (.float x)
  | text (s : String) : Denotes (.text s) (.text s)
  | nil : Denotes (.array []) (.list [])
  | cons {d : Document} {ds : List Document} {v : Native} {vs : List Native} (head : Denotes d v)
      (tail : Denotes (.array ds) (.list vs)) : Denotes (.array (d :: ds)) (.list (v :: vs))

lemma Denotes.exists_list {ds : List Document} {v : Native} (h : (array ds).Denotes v) :
    ∃ vs, v = .list vs := by
  cases h <;> exact ⟨_, rfl⟩

lemma toNative_array_eq_ok {ds : List Document} {v : Native} :
    (array ds).toNative = .ok v ↔ ∃ vs, toNatives ds = .ok vs ∧ v = .list vs := by
  simp only [toNative, bind_eq_ok, Except.ok.injEq]
  grind

lemma toNatives_cons_eq_ok {d : Document} {ds : List Document} {vs : List Native} :
    toNatives (d :: ds) = .ok vs ↔
      ∃ w ws, d.toNative = .ok w ∧ toNatives ds = .ok ws ∧ vs = w :: ws := by
  simp only [toNatives, bind_eq_ok, Except.ok.injEq]
  grind

mutual

lemma denotes_of_toNative {v : Native} : (d : Document) → d.toNative = .ok v → d.Denotes v
  | .null, h => by cases h; exact .null
  | .bool b, h => by cases h; exact .bool b
  | .int n, h => by
    rw [toNative] at h
    cases h
    cases hn : Word.ofInt? n with
    | none => exact .wide hn
    | some w => exact .int hn
  | .float x, h => by cases h; exact .float x
  | .text s, h => by cases h; exact .text s
  | .array ds, h => by
    obtain ⟨vs, hvs, rfl⟩ := toNative_array_eq_ok.1 h
    exact denotes_of_toNatives ds hvs
  | .object _, h => by simp [toNative] at h

lemma denotes_of_toNatives {vs : List Native} :
    (ds : List Document) → toNatives ds = .ok vs → (array ds).Denotes (.list vs)
  | [], h => by cases h; exact .nil
  | d :: ds, h => by
    obtain ⟨w, ws, hd, hds, rfl⟩ := toNatives_cons_eq_ok.1 h
    exact .cons (denotes_of_toNative d hd) (denotes_of_toNatives ds hds)

end

lemma toNative_eq_ok_iff {d : Document} {v : Native} : d.toNative = .ok v ↔ d.Denotes v := by
  refine ⟨denotes_of_toNative d, fun h => ?_⟩
  induction h with
  | null | bool | float | text | nil => simp [toNative, toNatives, bind, Except.bind]
  | int h | wide h => simp [toNative, h]
  | cons _ _ ihd ihds =>
    obtain ⟨vs, hds, heq⟩ := toNative_array_eq_ok.1 ihds
    cases heq
    exact toNative_array_eq_ok.2 ⟨_, toNatives_cons_eq_ok.2 ⟨_, _, ihd, hds, rfl⟩, rfl⟩

lemma toTerm_eq_ok_iff {d : Document} {t : Term} :
    d.toTerm = .ok t ↔ ∃ v, d.Denotes v ∧ v.Denotes t := by
  simp only [toTerm, bind_eq_ok, toNative_eq_ok_iff, Native.toTerm_eq_ok_iff]

end Document

end Relational
