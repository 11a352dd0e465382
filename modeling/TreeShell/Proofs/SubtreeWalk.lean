import TreeShell.Proofs.Node.Traversal
import TreeShell.Proofs.Path.Resolved

/-! # A walk lists the subtree

In a mapping whose keys are escaped names, no two of them alike, the places where a value stands and the paths below a
directory are the same things. A walk lists each of these paths once, and no path after one above it
(`Node.pairwise_listing`): the listings of two children share no path, since the names differ, and the directory comes
after both. Such a mapping also comes back when the directory is stored (`Node.toValue_childrenOf`), at every level. So the
loop over a stack enumerates the subtree exactly (`Node.walk_enumerates`).
-/

namespace TreeShell

open Path (IsName ofSegments isWithin)

namespace Value

mutual

/-- Whether no null is in a value, at any depth. -/
def NullFree : Value → Prop
  | .null => False
  | .mapping entries => NullFreeEntries entries
  | _ => True

def NullFreeEntries : List (String × Value) → Prop
  | [] => True
  | (_, v) :: rest => NullFree v ∧ NullFreeEntries rest

end

mutual

instance decidableNullFree : (v : Value) → Decidable v.NullFree
  | .mapping entries =>
    have := decidableNullFreeEntries entries
    inferInstanceAs (Decidable (NullFreeEntries entries))
  | .null => .isFalse id
  | .bool _ | .int _ | .real _ | .text _ | .list _ => .isTrue trivial

instance decidableNullFreeEntries : (entries : List (String × Value)) → Decidable (NullFreeEntries entries)
  | [] => .isTrue trivial
  | (_, v) :: rest =>
    have := decidableNullFree v
    have := decidableNullFreeEntries rest
    inferInstanceAs (Decidable (v.NullFree ∧ NullFreeEntries rest))

end

theorem nullFreeEntries_iff {entries : Entries} : NullFreeEntries entries ↔ ∀ e ∈ entries, NullFree e.2 := by
  induction entries with
  | nil => simp [NullFreeEntries]
  | cons e rest ih => simp [NullFreeEntries, ih]

/-- What holds of a value and of the values of every mapping it holds of, holds of all that stands in the value. -/
theorem reach?_induction {P : Value → Prop} (inner : ∀ entries, P (.mapping entries) → ∀ e ∈ entries, P e.2) {v w : Value}
    {place : List String} (holds : P v) (reached : v.reach? place = some w) : P w := by
  induction place generalizing v with
  | nil =>
    rw [reach?] at reached
    exact Option.some.inj reached ▸ holds
  | cons name place ih =>
    cases v with
    | mapping entries =>
      rw [reach?, Option.bind_eq_some_iff] at reached
      obtain ⟨u, found, reached⟩ := reached
      exact ih (inner entries holds _ (Assoc.mem_of_get? found)) reached
    | _ => cases reached

theorem NullFree.reach? {v w : Value} {place : List String} (nullFree : v.NullFree) (reached : v.reach? place = some w) :
    w.NullFree :=
  reach?_induction (P := NullFree) (fun _ holds => nullFreeEntries_iff.mp holds) nullFree reached

theorem Escaped.reach? {v w : Value} {place : List String} (escaped : v.Escaped) (reached : v.reach? place = some w) :
    w.Escaped :=
  reach?_induction (P := Escaped) (fun _ holds e member => (escapedEntries_iff.mp holds e member).2) escaped reached

theorem Distinct.reach? {v w : Value} {place : List String} (distinct : v.Distinct) (reached : v.reach? place = some w) :
    w.Distinct :=
  reach?_induction (P := Distinct) (fun _ holds => distinctEntries_iff.mp holds.2) distinct reached

theorem NullFree.ne_null {v : Value} (nullFree : v.NullFree) : v ≠ .null := by
  rintro rfl
  exact nullFree

end Value

namespace Node

open Value

variable {segs : List String} {entries : Entries} {e : String × Option Node}

/-! ## Every path once, and none after one above it -/

/-- The names of the children are those that the keys are escaped from. -/
theorem key_of_mem_childrenOf {name : String} {v : Value} (escaped : EscapedEntries entries)
    (member : (name, v) ∈ childrenOf entries) : IsName name ∧ ∃ key, (key, v) ∈ entries := by
  obtain ⟨⟨key, w⟩, inside, same⟩ := List.mem_map.mp (Assoc.mem_ofPairs member)
  cases same
  obtain ⟨⟨n, valid, rfl⟩, -⟩ := escapedEntries_iff.mp escaped _ inside
  rw [CodeTable.unescape_escape CodeTable.lawful_segment]
  exact ⟨valid, _, inside⟩

theorem path_of_mem_listing {v : Value} (escaped : v.Escaped) (distinct : v.Distinct) (names : ∀ s ∈ segs, IsName s)
    (listed : e ∈ listing (ofSegments segs) v) : ∃ rest, (∀ s ∈ rest, IsName s) ∧ e.1 = ofSegments (segs ++ rest) := by
  obtain ⟨rest, w, valids, -, rfl⟩ := (mem_listing v escaped distinct segs names).mp listed
  exact ⟨rest, valids, rfl⟩

/-- The paths in the listing of a child go on with its name. -/
theorem path_of_mem_child {c : String × Value} (escaped : EscapedEntries entries) (distinct : Distinct (.mapping entries))
    (names : ∀ s ∈ segs, IsName s) (child : c ∈ childrenOf entries)
    (listed : e ∈ listing (Path.join (ofSegments segs) c.1) c.2) :
    ∃ rest, (∀ s ∈ segs ++ c.1 :: rest, IsName s) ∧ e.1 = ofSegments (segs ++ c.1 :: rest) := by
  obtain ⟨valid, key, member⟩ := key_of_mem_childrenOf escaped child
  have escapedChild : c.2.Escaped := (escapedEntries_iff.mp escaped (key, c.2) member).2
  have distinctChild : c.2.Distinct := distinctEntries_iff.mp distinct.2 (key, c.2) member
  rw [Path.join_ofSegments names] at listed
  obtain ⟨rest, valids, same⟩ := path_of_mem_listing escapedChild distinctChild (Path.names_concat names valid) listed
  rw [List.append_assoc, List.singleton_append] at same
  exact ⟨rest, Path.names_append names (List.forall_mem_cons.mpr ⟨valid, valids⟩), same⟩

/-- No path is within another one if the segments part. -/
theorem isWithin_eq_false {others : List String} (names : ∀ s ∈ segs, IsName s) (otherNames : ∀ s ∈ others, IsName s)
    (parts : ¬ others <+: segs) : isWithin (ofSegments segs) (ofSegments others) = false := by
  rw [← Bool.not_eq_true, Path.isWithin_ofSegments names otherNames]
  exact parts

/-- In a listing no path comes after itself or one above it. -/
theorem pairwise_listing (v : Value) (escaped : v.Escaped) (distinct : v.Distinct) (segs : List String)
    (names : ∀ s ∈ segs, IsName s) :
    (listing (ofSegments segs) v).Pairwise fun earlier later => isWithin later.1 earlier.1 = false := by
  rcases v.mapping_or_scalar with ⟨entries, isMapping⟩ | scalar
  · have escaped : EscapedEntries entries := by
      rw [isMapping] at escaped
      exact escaped
    have distinct : Distinct (.mapping entries) := isMapping ▸ distinct
    have different : (childrenOf entries).Pairwise fun c d => c.1 ≠ d.1 := List.pairwise_map.mp (Assoc.nodup_ofPairs _)
    rw [isMapping, listing, ofPairs_listings, joinListings_adapt, List.pairwise_append, List.pairwise_flatMap,
      List.pairwise_reverse]
    refine ⟨⟨?_, ?_⟩, List.pairwise_singleton .., ?_⟩
    · -- in the listing of one child
      intro c child
      obtain ⟨valid, key, member⟩ := key_of_mem_childrenOf escaped (List.mem_reverse.mp child)
      have smaller : sizeOf c.2 < sizeOf v := by
        have within := List.sizeOf_lt_of_mem member
        simp only [isMapping, Prod.mk.sizeOf_spec, Value.mapping.sizeOf_spec] at within ⊢
        omega
      rw [Path.join_ofSegments names]
      have escapedChild : c.2.Escaped := (escapedEntries_iff.mp escaped (key, c.2) member).2
      have distinctChild : c.2.Distinct := distinctEntries_iff.mp distinct.2 (key, c.2) member
      exact pairwise_listing c.2 escapedChild distinctChild _ (Path.names_concat names valid)
    · -- in the listings of two children
      apply different.imp_of_mem
      intro c d child child' differ e listed e' listed'
      obtain ⟨rest, valids, same⟩ := path_of_mem_child escaped distinct names child listed'
      obtain ⟨rest', valids', same'⟩ := path_of_mem_child escaped distinct names child' listed
      rw [same, same']
      apply isWithin_eq_false valids valids'
      rw [List.prefix_append_right_inj, List.cons_prefix_cons]
      exact fun both => differ both.1.symm
    · -- in the listing of a child, and the directory
      intro e inside last here
      obtain ⟨c, child, listed⟩ := List.mem_flatMap.mp inside
      obtain ⟨rest, valids, same⟩ := path_of_mem_child escaped distinct names (List.mem_reverse.mp child) listed
      rw [List.mem_singleton.mp here, same]
      apply isWithin_eq_false names valids
      intro above
      have short := above.length_le
      rw [List.length_append, List.length_cons] at short
      omega
  · rw [listing_of_scalar scalar]
    exact List.pairwise_singleton ..
termination_by sizeOf v
decreasing_by exact smaller

section Ordered

variable {listing : List (String × Option Node)}

/-- If no path comes after itself, none is listed twice. -/
theorem nodup_of_pairwise
    (paths : ∀ e ∈ listing, ∃ front last, (∀ s ∈ front, IsName s) ∧ IsName last ∧ e.1 = ofSegments (front ++ [last]))
    (ordered : listing.Pairwise fun earlier later => isWithin later.1 earlier.1 = false) : (listing.map (·.1)).Nodup := by
  rw [List.Nodup, List.pairwise_map]
  apply ordered.imp_of_mem
  intro earlier later listed _ apart same
  obtain ⟨front, last, frontNames, valid, path⟩ := paths earlier listed
  have names := Path.names_concat frontNames valid
  rw [← same, path, ← Bool.not_eq_true, Path.isWithin_ofSegments names names] at apart
  exact apart List.prefix_rfl

/-- If no path comes after one above it, none comes after its parent. -/
theorem childrenFirst_of_pairwise
    (paths : ∀ e ∈ listing, ∃ front last, (∀ s ∈ front, IsName s) ∧ IsName last ∧ e.1 = ofSegments (front ++ [last]))
    (ordered : listing.Pairwise fun earlier later => isWithin later.1 earlier.1 = false) : childrenFirst listing = true := by
  induction listing with
  | nil => rfl
  | cons first rest ih =>
    obtain ⟨-, later⟩ := List.forall_mem_cons.mp paths
    obtain ⟨apart, ordered⟩ := List.pairwise_cons.mp ordered
    have noChild : (rest.any fun e => Path.parent e.1 = first.1) = false := by
      rw [List.any_eq_false]
      intro e inside isParent
      obtain ⟨front, last, names, valid, same⟩ := later e inside
      have outside := apart e inside
      rw [decide_eq_true_eq, same, Path.parent_ofSegments front valid] at isParent
      rw [same, ← isParent, ← Bool.not_eq_true, Path.isWithin_ofSegments (Path.names_concat names valid) names] at outside
      exact outside (List.prefix_append ..)
    rw [childrenFirst, noChild, ih later ordered]
    rfl

end Ordered

/-- A walk visits paths that have a last name. -/
theorem path_of_mem_walk (escaped : EscapedEntries entries) (distinct : Distinct (.mapping entries))
    (names : ∀ s ∈ segs, IsName s) (visited : e ∈ walk (ofSegments segs) (directory (childrenOf entries))) :
    ∃ front last, (∀ s ∈ front, IsName s) ∧ IsName last ∧ e.1 = ofSegments (front ++ [last]) := by
  obtain ⟨rest, w, nonempty, valids, -, rfl⟩ := (mem_walk names escaped distinct).mp visited
  obtain ⟨front, last, rfl⟩ := (List.eq_nil_or_concat rest).resolve_left nonempty
  rw [List.concat_eq_append] at valids ⊢
  obtain ⟨frontNames, lastName⟩ := List.forall_mem_append.mp valids
  rw [← List.append_assoc]
  exact ⟨segs ++ front, last, Path.names_append names frontNames, lastName _ (List.mem_singleton_self _), rfl⟩

theorem pairwise_walk (escaped : EscapedEntries entries) (distinct : Distinct (.mapping entries)) (names : ∀ s ∈ segs, IsName s) :
    (walk (ofSegments segs) (directory (childrenOf entries))).Pairwise
      fun earlier later => isWithin later.1 earlier.1 = false := by
  rw [walk_childrenOf]
  exact (pairwise_listing (.mapping entries) escaped distinct segs names).filter _

/-! ## Storing what was read -/

/-- A directory that was read from escaped names is stored as it was. -/
theorem toValue_childrenOf (escaped : EscapedEntries entries) (distinct : (Assoc.names entries).Nodup) :
    (directory (childrenOf entries)).toValue = .mapping entries := by
  have restored : (childrenOf entries).map (fun c => (CodeTable.segment.escape c.1, c.2)) = entries := by
    rw [childrenOf_eq (escape_unescape escaped) distinct, List.map_map]
    have same : ∀ e ∈ entries, (CodeTable.segment.escape (CodeTable.segment.unescape e.1), e.2) = e := by
      intro e member
      rw [escape_unescape escaped e member]
    exact (List.map_congr_left same).trans (List.map_id _)
  rw [toValue, restored, Assoc.ofPairs_of_nodup distinct]

/-- Of the values with such keys, mappings and texts are stored as they were read, and no others. -/
theorem toValue_ofValue?_iff {v : Value} (escaped : v.Escaped) (distinct : v.Distinct) :
    (ofValue? v).map toValue = some v ↔ v.isMapping = true ∨ ∃ s, v = .text s := by
  cases v with
  | mapping entries =>
    rw [ofValue?_mapping, Option.map_some, toValue_childrenOf escaped distinct.1]
    simp [isMapping]
  | text s => simp [ofValue?, toValue, plain]
  | bool b => cases b <;> simp [ofValue?, toValue, isMapping]
  | _ => simp [ofValue?, toValue, isMapping]

/-- A node is read as it was stored, whatever the names of its children. -/
theorem ofValue?_toValue (node : Node) (distinct : node.names.Nodup) : ofValue? node.toValue = some node := by
  cases node with
  | file content => rfl
  | directory children =>
    have distinct' : (Assoc.names (children.map fun c => (CodeTable.segment.escape c.1, c.2))).Nodup := by
      rw [Assoc.names, List.map_map]
      rw [names, Assoc.names, List.Nodup, List.pairwise_map] at distinct
      rw [List.Nodup, List.pairwise_map]
      apply distinct.imp
      intro c d differ same
      exact differ ((CodeTable.escape_inj CodeTable.lawful_segment).mp same)
    have restored : ((children.map fun c => (CodeTable.segment.escape c.1, c.2)).map
        fun e => (CodeTable.segment.unescape e.1, e.2)) = children := by
      rw [List.map_map]
      apply List.map_id''
      intro c
      exact congrArg (·, c.2) (CodeTable.unescape_escape CodeTable.lawful_segment c.1)
    rw [toValue, Assoc.ofPairs_of_nodup distinct', ofValue?_mapping, childrenOf, restored, Assoc.ofPairs_of_nodup distinct]

/-! ## The whole walk -/

/-- A walk enumerates the subtree. Of a mapping without nulls whose keys are escaped names, none of them given twice, let a
directory be read and be walked from a resolved path:

- the loop over a stack ends, and has then visited what the walk lists;
- the walk lists the path of every place below the start where a value stands, with the node that the value stands for,
  and nothing else;
- it lists no path twice, none after one above it, and so none after its parent.

At every place in such a mapping what is read is stored as it was if it is a mapping or a text, and a node of any kind is
read as it was stored. -/
theorem walk_enumerates {path : String} (escaped : EscapedEntries entries) (distinct : Distinct (.mapping entries))
    (nullFree : NullFree (.mapping entries)) (resolved : Path.IsResolved path) :
    (∃ start, ofValue? (.mapping entries) = some start ∧
      Leads path ⟨[⟨path, some start, false⟩], []⟩ ⟨[], start.walk path⟩ ∧
      (∀ other found, (other, found) ∈ start.walk path ↔
        ∃ rest v node, rest ≠ [] ∧ (∀ s ∈ rest, IsName s) ∧ other = ofSegments (Path.segments path ++ rest) ∧
          (Value.mapping entries).reach? (rest.map CodeTable.segment.escape) = some v ∧ ofValue? v = some node ∧
          found = some node) ∧
      ((start.walk path).map (·.1)).Nodup ∧
      (start.walk path).Pairwise (fun earlier later => isWithin later.1 earlier.1 = false) ∧
      childrenFirst (start.walk path) = true) ∧
    (∀ place v, (Value.mapping entries).reach? place = some v →
      ((ofValue? v).map toValue = some v ↔ v.isMapping = true ∨ ∃ s, v = .text s)) ∧
    ∀ node : Node, node.names.Nodup → ofValue? node.toValue = some node := by
  obtain ⟨segs, names, rfl⟩ := resolved.exists_names
  have ordered := pairwise_walk escaped distinct names
  have paths (e : String × Option Node) := path_of_mem_walk (e := e) escaped distinct names
  refine ⟨⟨_, ofValue?_mapping entries, leads_walk _ entries, ?_, nodup_of_pairwise paths ordered, ordered,
    childrenFirst_of_pairwise paths ordered⟩, ?_, ofValue?_toValue⟩
  · intro other found
    rw [mem_walk names escaped distinct, Path.segments_ofSegments names]
    constructor
    · rintro ⟨rest, v, nonempty, valids, reached, same⟩
      obtain ⟨rfl, rfl⟩ := Prod.mk.inj same
      obtain ⟨node, decoded⟩ := exists_ofValue? (nullFree.reach? reached).ne_null
      exact ⟨rest, v, node, nonempty, valids, rfl, reached, decoded, decoded⟩
    · rintro ⟨rest, v, node, nonempty, valids, rfl, reached, decoded, rfl⟩
      exact ⟨rest, v, nonempty, valids, reached, by rw [decoded]⟩
  · intro place v reached
    have whole : (Value.mapping entries).Escaped := escaped
    exact toValue_ofValue?_iff (whole.reach? reached) (distinct.reach? reached)

/-- A file with a dot in its name, a number and an empty directory below `/top`, and a node with a slash in a name. -/
theorem walk_enumerates_below_top :
    let entries : Entries := [("a\\periodtxt", .text "x"), ("sub", .mapping [("f", .int 3), ("empty", .mapping [])])]
    EscapedEntries entries ∧ Distinct (.mapping entries) ∧ NullFree (.mapping entries) ∧ Path.IsResolved "/top" ∧
      Leads "/top" ⟨[⟨"/top", ofValue? (.mapping entries), false⟩], []⟩ ⟨[],
        [("/top/sub/empty", some (.directory [])), ("/top/sub/f", some (.file "3")),
          ("/top/sub", some (.directory [("f", .int 3), ("empty", .mapping [])])), ("/top/a.txt", some (.file "x"))]⟩ ∧
      (ofValue? (.mapping entries)).map toValue = some (.mapping entries) ∧
      ofValue? (directory [("a/b", .null)]).toValue = some (directory [("a/b", .null)]) := by
  intro entries
  have escaped : EscapedEntries entries := by decide
  have distinct : Distinct (.mapping entries) := by decide
  have nullFree : NullFree (.mapping entries) := by decide
  have resolved : Path.IsResolved "/top" := ⟨["top"], by decide, by decide⟩
  obtain ⟨⟨start, decoded, leads, -⟩, stored, restored⟩ := walk_enumerates escaped distinct nullFree resolved
  obtain rfl := Option.some.inj decoded
  refine ⟨escaped, distinct, nullFree, resolved, ?_, (stored [] _ rfl).mpr (.inl rfl), restored _ (by decide)⟩
  have listed : (directory (childrenOf entries)).walk "/top" =
      [("/top/sub/empty", some (.directory [])), ("/top/sub/f", some (.file "3")),
        ("/top/sub", some (.directory [("f", .int 3), ("empty", .mapping [])])), ("/top/a.txt", some (.file "x"))] := by
    decide
  rw [listed] at leads
  exact leads

end Node

end TreeShell
