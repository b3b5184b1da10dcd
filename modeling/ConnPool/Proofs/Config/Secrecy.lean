/-
  What a check discloses of the secret that a configuration carries.

  The secret can reach a driver in two ways, as the password of the source and as a property under the
  name of the password.  What is printed masks the first, and shows the second as it shows every
  property.  So of two settings that are equal except for the secret, everything printed is the same but
  that property, and the texts are equal just when the property is (`text_withSecret`,
  `pretty_withSecret`).

  For the JSON form this needs that a text can be read off what is written for it, which holds because
  what is written for one character is never the beginning of what is written for another
  (`escape_append_inj`).
-/
import ConnPool.Commands
import Mathlib.Data.List.Basic

namespace ConnPool

/-! ## JSON texts that differ in one place -/

namespace Json

open ConnPool.Toml (hexValue shortEscape)

theorem hexValue_digitChar : ∀ n, n < 16 → hexValue (Nat.digitChar n) = some n := by
  decide

/-- How a character is written between quotes: as itself, behind a backslash as the letter that stands
for it, or by its number. -/
theorem escape_cases (c : Char) :
    (escape c = [c] ∧ c ≠ '\\') ∨
    (∃ x, escape c = ['\\', x] ∧ shortEscape x = some c) ∨
    (∃ high low, escape c = ['\\', 'u', '0', '0', high, low] ∧
      hexValue high = some (c.toNat / 16) ∧ hexValue low = some (c.toNat % 16)) := by
  unfold escape
  split
  case isTrue hq => exact .inr (.inl ⟨'"', rfl, by rw [hq]; rfl⟩)
  split
  case isTrue hb => exact .inr (.inl ⟨'\\', rfl, by rw [hb]; rfl⟩)
  split
  case isTrue hn => exact .inr (.inl ⟨'n', rfl, by rw [hn]; rfl⟩)
  split
  case isTrue hr => exact .inr (.inl ⟨'r', rfl, by rw [hr]; rfl⟩)
  split
  case isTrue ht => exact .inr (.inl ⟨'t', rfl, by rw [ht]; rfl⟩)
  split
  case isTrue h8 =>
    have hc : c = Char.ofNat 8 := by rw [← h8, Char.ofNat_toNat]
    exact .inr (.inl ⟨'b', rfl, by rw [hc]; rfl⟩)
  split
  case isTrue h12 =>
    have hc : c = Char.ofNat 12 := by rw [← h12, Char.ofNat_toNat]
    exact .inr (.inl ⟨'f', rfl, by rw [hc]; rfl⟩)
  split
  case isTrue hcode =>
    exact .inr (.inr ⟨_, _, rfl, hexValue_digitChar _ (by omega), hexValue_digitChar _ (by omega)⟩)
  case isFalse hb _ _ _ _ _ _ => exact .inl ⟨rfl, hb⟩

theorem escape_ne_nil (c : Char) : escape c ≠ [] := by
  rcases escape_cases c with ⟨h, -⟩ | ⟨x, h, -⟩ | ⟨high, low, h, -⟩ <;> simp [h]

/-- **What is written for a character tells the character**, whatever follows. -/
theorem escape_append_inj {c d : Char} {s t : List Char} (h : escape c ++ s = escape d ++ t) :
    c = d := by
  rcases escape_cases c with ⟨hc, hplain⟩ | ⟨x, hc, hx⟩ | ⟨high, low, hc, hhigh, hlow⟩
  · rcases escape_cases d with ⟨hd, -⟩ | ⟨y, hd, -⟩ | ⟨high, low, hd, -⟩
    all_goals
      rw [hc, hd] at h
      have hhead := (List.cons.inj h).1
    · exact hhead
    all_goals exact absurd hhead hplain
  · rcases escape_cases d with ⟨hd, hplain⟩ | ⟨y, hd, hy⟩ | ⟨high, low, hd, -⟩
    all_goals rw [hc, hd] at h
    · exact absurd (List.cons.inj h).1.symm hplain
    · obtain rfl : x = y := (List.cons.inj (List.cons.inj h).2).1
      exact Option.some.inj (hx.symm.trans hy)
    · obtain rfl : x = 'u' := (List.cons.inj (List.cons.inj h).2).1
      exact nomatch hx
  · rcases escape_cases d with ⟨hd, hplain⟩ | ⟨y, hd, hy⟩ | ⟨high', low', hd, hhigh', hlow'⟩
    all_goals rw [hc, hd] at h
    · exact absurd (List.cons.inj h).1.symm hplain
    · obtain rfl : 'u' = y := (List.cons.inj (List.cons.inj h).2).1
      exact nomatch hy
    · -- the two digits make the number of the character
      simp only [List.cons_append, List.cons.injEq, true_and] at h
      obtain ⟨rfl, rfl, -⟩ := h
      have hdiv := Option.some.inj (hhigh.symm.trans hhigh')
      have hmod := Option.some.inj (hlow.symm.trans hlow')
      have hnat : c.toNat = d.toNat := by omega
      rw [← Char.ofNat_toNat c, hnat, Char.ofNat_toNat]

theorem flatMap_escape_inj {s t : List Char} (h : s.flatMap escape = t.flatMap escape) : s = t := by
  induction s generalizing t with
  | nil =>
    cases t with
    | nil => rfl
    | cons d t => exact absurd (List.append_eq_nil_iff.1 h.symm).1 (escape_ne_nil d)
  | cons c s ih =>
    cases t with
    | nil => exact absurd (List.append_eq_nil_iff.1 h).1 (escape_ne_nil c)
    | cons d t =>
      rw [List.flatMap_cons, List.flatMap_cons] at h
      obtain rfl := escape_append_inj h
      rw [ih (List.append_cancel_left h)]

/-- A text can be read off what is written for it. -/
theorem quote_inj {s t : String} : quote s = quote t ↔ s = t := by
  constructor
  · intro h
    have hwritten := String.ofList_injective h
    have hinner := List.append_cancel_right (List.cons.inj hwritten).2
    exact String.toList_injective (flatMap_escape_inj hinner)
  · intro h
    rw [h]

/-- Members that differ in one value are the same text if that value is. -/
theorem prettyMembers_inj {depth : Nat} {k : String} {v v' : Json} (after : List (String × Json)) :
    ∀ before : List (String × Json), prettyMembers depth (before ++ (k, v) :: after) =
      prettyMembers depth (before ++ (k, v') :: after) ↔ v.prettyAt depth = v'.prettyAt depth
  | [] => by
    cases after with
    | nil => simp only [List.nil_append, prettyMembers, String.append_right_inj]
    | cons m after =>
      simp only [List.nil_append, prettyMembers, String.append_left_inj, String.append_right_inj]
  -- there is no comma behind the last member, so it has to be seen that another follows
  | [(k₁, v₁)] => by
    simp only [List.cons_append, List.nil_append, prettyMembers, String.append_right_inj]
    exact prettyMembers_inj after []
  | (k₁, v₁) :: m :: before => by
    simp only [List.cons_append, prettyMembers, String.append_right_inj]
    exact prettyMembers_inj after (m :: before)

/-- Objects that differ in one value are the same text if that value is. -/
theorem prettyAt_obj_inj {depth : Nat} {k : String} {v v' : Json}
    (before after : List (String × Json)) :
    (obj (before ++ (k, v) :: after)).prettyAt depth =
      (obj (before ++ (k, v') :: after)).prettyAt depth ↔
      v.prettyAt (depth + 1) = v'.prettyAt (depth + 1) := by
  refine Iff.trans ?_ (prettyMembers_inj (k := k) after before)
  cases before with
  | nil => simp only [List.nil_append, prettyAt, String.append_left_inj, String.append_right_inj]
  | cons m before =>
    simp only [List.cons_append, prettyAt, String.append_left_inj, String.append_right_inj]

end Json

/-! ## The secret -/

/-- What stands under a name in ascending entries is replaced on the spot. -/
theorem Properties.place_append {name value value' : String} {after : List (String × String)} :
    ∀ {before : List (String × String)}, (∀ e ∈ before, e.1 < name) →
      place name value' (before ++ (name, value) :: after) = before ++ (name, value') :: after
  | [], _ => by
    rw [List.nil_append, place, if_neg (String.lt_irrefl name), if_pos rfl]
    rfl
  | (k, v) :: before, h => by
    obtain ⟨hk, hbefore⟩ := List.forall_mem_cons.1 h
    have hne : name ≠ k := fun he => String.lt_irrefl name (he ▸ hk)
    rw [List.cons_append, place, if_neg (String.lt_asymm hk), if_neg hne, place_append hbefore]
    rfl

/-- A secret, in the two ways in which it can reach a driver. -/
structure Secret where
  /-- The password of the source. -/
  password : String
  /-- What stands under the name of the password in the properties of the driver. -/
  property : String
deriving DecidableEq, Repr

namespace Resolved

/-- The same settings with another secret. -/
def withSecret (r : Resolved) (s : Secret) : Resolved :=
  { r with source := { r.source with
      password := some s.password
      properties := r.source.properties.set "password" s.property } }

/-- Settings that carry a secret in both ways, and others that are equal except for the secret. -/
structure SameButSecret (r r' : Resolved) : Prop where
  password : r.source.password.isSome
  property : (r.source.properties.get? "password").isSome
  differs : ∃ s, r' = r.withSecret s

/-- The entries of settings that carry a secret, and what becomes of them with another secret. -/
theorem entries_withSecret {r : Resolved} {value : String}
    (h : r.source.properties.get? "password" = some value) :
    ∃ before after, r.source.properties.entries = before ++ ("password", value) :: after ∧
      ∀ s, (r.withSecret s).source.properties.entries =
        before ++ ("password", s.property) :: after := by
  obtain ⟨before, after, hentries, -⟩ := List.lookup_eq_some_iff.1 h
  refine ⟨before, after, hentries, fun s => ?_⟩
  have hascending := r.source.properties.ascending
  rw [hentries] at hascending
  have hbefore : ∀ e ∈ before, e.1 < "password" := fun e he =>
    (List.pairwise_append.1 hascending).2.2 e he _ List.mem_cons_self
  -- the keys ascend, so the new value stands where the old one stood
  show Properties.place _ _ r.source.properties.entries = _
  rw [hentries, Properties.place_append hbefore]

theorem row_inj {name value value' : String} : row name value = row name value' ↔ value = value' := by
  simp only [row, String.append_left_inj, String.append_right_inj]

/-- Lines that differ in one are the same text if that line is. -/
theorem join_map_inj {f : α → String} {a a' : α} (before after : List α) :
    String.join ((before ++ a :: after).map f) = String.join ((before ++ a' :: after).map f) ↔
      f a = f a' := by
  simp only [List.map_append, List.map_cons, String.join_append, String.join_cons,
    String.append_left_inj, String.append_right_inj]

section

variable {r : Resolved} {password value : String} (s : Secret)
  (hpassword : r.source.password = some password)
  (hvalue : r.source.properties.get? "password" = some value)

include hpassword hvalue

/-- **The text form shows the property and not the password.** -/
theorem text_withSecret : r.text = (r.withSecret s).text ↔ value = s.property := by
  obtain ⟨before, after, hentries, hentries'⟩ := entries_withSecret hvalue
  have hpool : (r.withSecret s).pool = r.pool := rfl
  have hmask : shown mask (r.withSecret s).source.password = shown mask (some password) := rfl
  unfold text
  rw [hentries, hentries' s, hpassword, hmask, hpool]
  dsimp only [withSecret]
  simp only [String.append_left_inj, String.append_right_inj, join_map_inj, row_inj]

/-- **The JSON form shows the property and not the password.** -/
theorem pretty_withSecret : r.toJson.pretty = (r.withSecret s).toJson.pretty ↔ value = s.property := by
  obtain ⟨before, after, hentries, hentries'⟩ := entries_withSecret hvalue
  unfold toJson Json.pretty
  rw [hentries, hentries' s, hpassword]
  -- down to the source, to its properties, and to the one that may be another
  refine (Json.prettyAt_obj_inj [_] []).trans ?_
  refine (Json.prettyAt_obj_inj [_, _, _, _, _] [_, _]).trans ?_
  rw [List.map_append, List.map_append]
  refine (Json.prettyAt_obj_inj (before.map _) (after.map _)).trans ?_
  exact Json.quote_inj

end

/-- **A check discloses the property and not the password.**  Of two settings that are equal except for
the secret that they carry, a check prints the same in either format, and for whatever file, if and only
if the same stands under the name of the password in their properties. -/
theorem check_discloses_property_alone {r r' : Resolved} (h : SameButSecret r r')
    (path format : String) : r.output path format = r'.output path format ↔
      r.source.properties.get? "password" = r'.source.properties.get? "password" := by
  obtain ⟨s, rfl⟩ := h.differs
  obtain ⟨password, hpassword⟩ := Option.isSome_iff_exists.1 h.password
  obtain ⟨value, hvalue⟩ := Option.isSome_iff_exists.1 h.property
  have hother : (r.withSecret s).source.properties.get? "password" = some s.property := by
    show (r.source.properties.set _ _).get? _ = _
    rw [Properties.get?_set, if_pos rfl]
  rw [hvalue, hother, Option.some_inj]
  unfold output
  split
  case isTrue => rw [String.append_left_inj, pretty_withSecret s hpassword hvalue]
  case isFalse =>
    rw [String.append_left_inj, String.append_left_inj, String.append_left_inj,
      text_withSecret s hpassword hvalue]

/-! ## Files that carry their secret in both ways -/

/-- A configuration file that gives a password to the source, and one to the driver as a property. -/
def entrusted (s : Secret) : String :=
  "[source]\ndriver = \"memory\"\nurl = \"mem://orders\"\npassword = \"" ++ s.password ++
    "\"\n[source.properties]\npassword = \"" ++ s.property ++ "\"\n"

/-- The settings in such a file. -/
def ofEntrusted (s : Secret) : Resolved where
  source := {
    driver := "memory"
    url := "mem://orders"
    password := some s.password
    properties := .ofList [("password", s.property)] }
  pool := .standard

/-- The password of the source may be another, and nothing of it is seen. -/
theorem check_discloses_property_alone_entrusted :
    let r := ofEntrusted ⟨"hunter2", "hunter2"⟩
    let r' := ofEntrusted ⟨"letmein", "hunter2"⟩
    SameButSecret r r' ∧ r.source.password ≠ r'.source.password ∧
      r.output "reservoir.toml" "text" = r'.output "reservoir.toml" "text" ∧
      r.output "reservoir.toml" "json" = r'.output "reservoir.toml" "json" := by
  intro r r'
  have hsame : SameButSecret r r' :=
    ⟨rfl, by decide, ⟨"letmein", "hunter2"⟩, by decide⟩
  exact ⟨hsame, by decide, (check_discloses_property_alone hsame _ _).2 rfl,
    (check_discloses_property_alone hsame _ _).2 rfl⟩

/-- Two files that are equal except for the secret, with a check that prints something else for each of
them, in both formats. -/
theorem discloses_secret :
    let s : Secret := ⟨"hunter2", "hunter2"⟩
    let s' : Secret := ⟨"letmein", "letmein"⟩
    (Config.parse (entrusted s) >>= ofConfig) = .ok (ofEntrusted s) ∧
      (Config.parse (entrusted s') >>= ofConfig) = .ok (ofEntrusted s') ∧
      SameButSecret (ofEntrusted s) (ofEntrusted s') ∧
      (ofEntrusted s).output "reservoir.toml" "text" ≠
        (ofEntrusted s').output "reservoir.toml" "text" ∧
      (ofEntrusted s).output "reservoir.toml" "json" ≠
        (ofEntrusted s').output "reservoir.toml" "json" := by
  intro s s'
  exact ⟨by decide +kernel, by decide +kernel, ⟨rfl, by decide, s', by decide⟩,
    by decide +kernel, by decide +kernel⟩

end Resolved

end ConnPool
