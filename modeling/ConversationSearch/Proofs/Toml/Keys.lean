import ConversationSearch.Proofs.Json.Members
import ConversationSearch.Toml.Document

/-!
# Keys of a document

No table of a document has a key twice, whether a header opens it, it stands above a dotted key, or
it is written in place. An entry comes into a table only under a key that is not there yet; under
a key that is there, only what stands below it is added to.
-/

namespace ConversationSearch.Toml

/-- No table within the value has a key twice. -/
inductive IsDistinct : Toml → Prop
  | bool (b : Bool) : IsDistinct (.bool b)
  | int (n : Int) : IsDistinct (.int n)
  | real (d : Json.Double) : IsDistinct (.real d)
  | string (s : String) : IsDistinct (.string s)
  | date (s : String) : IsDistinct (.date s)
  | array {items : List Toml} (hitems : ∀ item ∈ items, IsDistinct item) :
      IsDistinct (.array items)
  | table {members : List (String × Toml)} (hkeys : (members.map (·.1)).Nodup)
      (hvalues : ∀ m ∈ members, IsDistinct m.2) : IsDistinct (.table members)

/-- No two members have one key, and no table within a member has a key twice. -/
structure AreDistinct (members : List (String × Toml)) : Prop where
  keys : (members.map (·.1)).Nodup
  values : ∀ m ∈ members, m.2.IsDistinct

theorem isDistinct_table_iff {members : List (String × Toml)} :
    (Toml.table members).IsDistinct ↔ AreDistinct members := by
  constructor
  · rintro (_ | _ | _ | _ | _ | _ | ⟨hkeys, hvalues⟩)
    exact ⟨hkeys, hvalues⟩
  · rintro ⟨hkeys, hvalues⟩
    exact .table hkeys hvalues

/-! ## Drafts -/

namespace Draft

/-- No table within the draft has a key twice. -/
inductive IsDistinct : Draft → Prop
  | value {v : Toml} (hv : v.IsDistinct) : IsDistinct (.value v)
  | table {origin : Origin} {members : List (String × Draft)} (hkeys : (members.map (·.1)).Nodup)
      (hvalues : ∀ m ∈ members, IsDistinct m.2) : IsDistinct (.table origin members)
  | tables {items : List (List (String × Draft))}
      (hkeys : ∀ members ∈ items, (members.map (·.1)).Nodup)
      (hvalues : ∀ members ∈ items, ∀ m ∈ members, IsDistinct m.2) : IsDistinct (.tables items)

/-- No two members have one key, and no table within a member has a key twice. -/
structure AreDistinct (members : List (String × Draft)) : Prop where
  keys : (members.map (·.1)).Nodup
  values : ∀ m ∈ members, m.2.IsDistinct

variable {v : Toml} {key : String} {d : Draft} {origin : Origin}
  {members inner out : List (String × Draft)} {items : List (List (String × Draft))}

theorem isDistinct_table_iff :
    (Draft.table origin members).IsDistinct ↔ AreDistinct members := by
  constructor
  · rintro (_ | ⟨hkeys, hvalues⟩ | _)
    exact ⟨hkeys, hvalues⟩
  · rintro ⟨hkeys, hvalues⟩
    exact .table hkeys hvalues

theorem isDistinct_tables_iff :
    (Draft.tables items).IsDistinct ↔ ∀ members ∈ items, AreDistinct members := by
  constructor
  · rintro (_ | _ | ⟨hkeys, hvalues⟩) members hmembers
    exact ⟨hkeys members hmembers, hvalues members hmembers⟩
  · intro h
    exact .tables (fun members hmembers => (h members hmembers).keys)
      (fun members hmembers => (h members hmembers).values)

/-! ## The value of a draft -/

theorem membersToToml_eq_map (members : List (String × Draft)) :
    membersToToml members = members.map fun m => (m.1, m.2.toToml) := by
  induction members with
  | nil => rfl
  | cons m rest ih => rw [membersToToml, ih, List.map_cons]

theorem itemsToToml_eq_map (items : List (List (String × Draft))) :
    itemsToToml items = items.map fun members => .table (membersToToml members) := by
  induction items with
  | nil => rfl
  | cons members rest ih => rw [itemsToToml, ih, List.map_cons]

theorem areDistinct_membersToToml (hkeys : (members.map (·.1)).Nodup)
    (hvalues : ∀ m ∈ members, m.2.toToml.IsDistinct) :
    Toml.AreDistinct (membersToToml members) := by
  rw [membersToToml_eq_map]
  constructor
  · rw [List.map_map]
    exact hkeys
  · intro m hm
    obtain ⟨source, hsource, rfl⟩ := List.mem_map.mp hm
    exact hvalues source hsource

theorem IsDistinct.toToml (h : d.IsDistinct) :
    d.toToml.IsDistinct := by
  induction h with
  | value hv => exact hv
  | table hkeys _ ih =>
    rw [Draft.toToml]
    exact Toml.isDistinct_table_iff.mpr (areDistinct_membersToToml hkeys ih)
  | tables hkeys _ ih =>
    rw [Draft.toToml, itemsToToml_eq_map]
    refine .array fun item hitem => ?_
    obtain ⟨members, hmembers, rfl⟩ := List.mem_map.mp (List.mem_reverse.mp hitem)
    exact Toml.isDistinct_table_iff.mpr
      (areDistinct_membersToToml (hkeys members hmembers) (ih members hmembers))

theorem AreDistinct.toToml (h : AreDistinct members) :
    Toml.AreDistinct (membersToToml members) :=
  areDistinct_membersToToml h.keys fun m hm => (h.values m hm).toToml

/-! ## Adding to a draft -/

theorem mem_keys_setMember {k : String} :
    k ∈ (setMember key d members).map (·.1) ↔ k = key ∨ k ∈ members.map (·.1) := by
  induction members with
  | nil => simp [setMember]
  | cons first rest ih =>
    unfold setMember
    by_cases hkey : first.1 = key
    · simp [hkey]
    · rw [if_neg hkey, List.map_cons, List.mem_cons, ih, List.map_cons, List.mem_cons]
      exact or_left_comm

namespace AreDistinct

theorem empty :
    AreDistinct [] :=
  ⟨.nil, by simp⟩

theorem of_lookup (h : AreDistinct members) (hheld : members.lookup key = some d) :
    d.IsDistinct :=
  h.values _ (Json.mem_of_lookup hheld)

theorem table_below (h : AreDistinct members)
    (hheld : members.lookup key = some (.table origin inner)) :
    AreDistinct inner :=
  isDistinct_table_iff.mp (h.of_lookup hheld)

theorem append (h : AreDistinct members) (hnew : members.lookup key = none) (hd : d.IsDistinct) :
    AreDistinct (members ++ [(key, d)]) := by
  rw [List.lookup_eq_none_iff] at hnew
  constructor
  · rw [List.map_append, List.nodup_append]
    refine ⟨h.keys, by simp, ?_⟩
    intro k hk other hother
    obtain ⟨m, hm, rfl⟩ := List.mem_map.mp hk
    obtain rfl : other = key := by simpa using hother
    exact fun heq => by simpa [heq] using hnew m hm
  · intro m hm
    rcases List.mem_append.mp hm with hm | hm
    · exact h.values m hm
    · obtain rfl := List.mem_singleton.mp hm
      exact hd

theorem setMember (h : AreDistinct members) (key : String) (hd : d.IsDistinct) :
    AreDistinct (setMember key d members) := by
  induction members with
  | nil => exact append empty rfl hd
  | cons first rest ih =>
    obtain ⟨hfirst, hkeys⟩ := List.nodup_cons.mp h.keys
    obtain ⟨hvalue, hvalues⟩ := List.forall_mem_cons.mp h.values
    unfold Draft.setMember
    by_cases hkey : first.1 = key
    · rw [if_pos hkey]
      exact ⟨List.nodup_cons.mpr ⟨hkey ▸ hfirst, hkeys⟩, List.forall_mem_cons.mpr ⟨hd, hvalues⟩⟩
    · rw [if_neg hkey]
      have hrest := ih ⟨hkeys, hvalues⟩
      refine ⟨List.nodup_cons.mpr ⟨?_, hrest.keys⟩,
        List.forall_mem_cons.mpr ⟨hvalue, hrest.values⟩⟩
      rw [mem_keys_setMember, not_or]
      exact ⟨hkey, hfirst⟩

/-- Adding to a table below adds no key above it. -/
theorem below (h : AreDistinct members) {added : Option (List (String × Draft))}
    (hadded : ∀ inner, added = some inner → AreDistinct inner)
    (hout : (added.bind fun inner => some (Draft.setMember key (.table origin inner) members)) =
      some out) :
    AreDistinct out := by
  obtain ⟨inner, hinner, hset⟩ := Option.bind_eq_some_iff.mp hout
  obtain rfl := Option.some.inj hset
  exact h.setMember key (isDistinct_table_iff.mpr (hadded inner hinner))

/-- Adding to the latest of the tables of one name adds no key above it. -/
theorem below_last (h : AreDistinct members) {last : List (String × Draft)}
    (hheld : members.lookup key = some (.tables (last :: items)))
    {added : Option (List (String × Draft))}
    (hadded : AreDistinct last → ∀ last, added = some last → AreDistinct last)
    (hout : (added.bind fun last => some (Draft.setMember key (.tables (last :: items)) members)) =
      some out) :
    AreDistinct out := by
  obtain ⟨hlast, hitems⟩ :=
    List.forall_mem_cons.mp (isDistinct_tables_iff.mp (h.of_lookup hheld))
  obtain ⟨inner, hinner, hset⟩ := Option.bind_eq_some_iff.mp hout
  obtain rfl := Option.some.inj hset
  exact h.setMember key
    (isDistinct_tables_iff.mpr (List.forall_mem_cons.mpr ⟨hadded hlast inner hinner, hitems⟩))

theorem addEntry (hv : v.IsDistinct) {isDotted : Bool} {segments : List String}
    (h : AreDistinct members) (hout : addEntry v isDotted segments members = some out) :
    AreDistinct out := by
  fun_induction Draft.addEntry v isDotted segments members generalizing out with
  | case1 | case3 | case5 | case7 | case9 => contradiction
  | case2 _ _ _ hnew =>
    obtain rfl := Option.some.inj hout
    exact h.append hnew (.value hv)
  | case4 _ _ _ _ _ _ ih => exact h.below (fun inner => ih empty) hout
  | case6 _ _ _ _ _ _ _ hheld _ ih => exact h.below (fun inner => ih (h.table_below hheld)) hout
  | case8 _ _ _ _ _ _ _ hheld _ ih => exact h.below_last hheld (fun hlast inner => ih hlast) hout

theorem openTable {segments : List String} (h : AreDistinct members)
    (hout : openTable segments members = some out) :
    AreDistinct out := by
  fun_induction Draft.openTable segments members generalizing out with
  | case1 | case4 | case8 => contradiction
  | case2 _ _ hnew =>
    obtain rfl := Option.some.inj hout
    exact h.append hnew (isDistinct_table_iff.mpr empty)
  | case3 _ _ _ hheld =>
    obtain rfl := Option.some.inj hout
    exact h.setMember _ (isDistinct_table_iff.mpr (h.table_below hheld))
  | case5 _ _ _ _ _ ih => exact h.below (fun inner => ih empty) hout
  | case6 _ _ _ _ _ _ hheld ih => exact h.below (fun inner => ih (h.table_below hheld)) hout
  | case7 _ _ _ _ _ _ hheld ih => exact h.below_last hheld (fun hlast inner => ih hlast) hout

theorem openItem {segments : List String} (h : AreDistinct members)
    (hout : openItem segments members = some out) :
    AreDistinct out := by
  fun_induction Draft.openItem segments members generalizing out with
  | case1 | case4 | case8 => contradiction
  | case2 _ _ hnew =>
    obtain rfl := Option.some.inj hout
    exact h.append hnew (isDistinct_tables_iff.mpr (by simp [empty]))
  | case3 _ _ _ hheld =>
    obtain rfl := Option.some.inj hout
    have hitems := isDistinct_tables_iff.mp (h.of_lookup hheld)
    exact h.setMember _ (isDistinct_tables_iff.mpr (List.forall_mem_cons.mpr ⟨empty, hitems⟩))
  | case5 _ _ _ _ _ ih => exact h.below (fun inner => ih empty) hout
  | case6 _ _ _ _ _ _ hheld ih => exact h.below (fun inner => ih (h.table_below hheld)) hout
  | case7 _ _ _ _ _ _ hheld ih => exact h.below_last hheld (fun hlast inner => ih hlast) hout

theorem addAt (hv : v.IsDistinct) {segments place : List String} (h : AreDistinct members)
    (hout : addAt segments v place members = some out) :
    AreDistinct out := by
  fun_induction Draft.addAt segments v place members generalizing out with
  | case1 => exact h.addEntry hv hout
  | case2 _ _ _ _ _ hheld ih => exact h.below (fun inner => ih (h.table_below hheld)) hout
  | case3 _ _ _ _ _ hheld ih => exact h.below_last hheld (fun hlast inner => ih hlast) hout
  | case4 => contradiction

end AreDistinct
end Draft

/-! ## Reading a document -/

theorem isDistinct_ofWord {cs : List Char} {v : Toml} (h : ofWord cs = some v) :
    v.IsDistinct := by
  unfold ofWord at h
  split at h
  · obtain rfl := Option.some.inj h
    exact .bool true
  split at h
  · obtain rfl := Option.some.inj h
    exact .bool false
  simp only [Option.orElse_eq_orElse, Option.orElse_eq_or, Option.map_eq_map, Option.or_eq_some_iff,
    Option.map_eq_some_iff] at h
  rcases h with ⟨n, -, rfl⟩ | ⟨-, ⟨d, -, rfl⟩ | ⟨-, s, -, rfl⟩⟩
  · exact .int n
  · exact .real d
  · exact .date s

/-- What is taken of a text with the given supply has no key twice. -/
structure TakesDistinct (supply : Nat) : Prop where
  value : ∀ {depth cs v rest}, takeValue supply depth cs = some (v, rest) → v.IsDistinct
  items : ∀ {depth cs items rest}, takeItems supply depth cs = some (items, rest) →
    ∀ item ∈ items, item.IsDistinct
  members : ∀ {depth cs members out rest}, Draft.AreDistinct members →
    takeMembers supply depth cs members = some (out, rest) → Draft.AreDistinct out

namespace TakesDistinct

variable {supply depth : Nat} {cs rest : List Char}

theorem quoted {v : Toml}
    (h : ((takeQuoted true cs).map fun r => (Toml.string r.1, r.2)) = some (v, rest)) :
    v.IsDistinct := by
  obtain ⟨⟨s, after⟩, -, h⟩ := Option.map_eq_some_iff.mp h
  obtain ⟨rfl, -⟩ := Prod.mk.inj h
  exact .string s

theorem value_succ (ih : TakesDistinct supply) {v : Toml}
    (h : takeValue (supply + 1) depth cs = some (v, rest)) :
    v.IsDistinct := by
  unfold takeValue at h
  split at h
  · exact quoted h
  · exact quoted h
  · split at h
    · contradiction
    · obtain ⟨⟨items, after⟩, hitems, h⟩ := Option.bind_eq_some_iff.mp h
      obtain ⟨rfl, -⟩ := Prod.mk.inj (Option.some.inj h)
      exact .array (ih.items hitems)
  · split at h
    · contradiction
    · have hmembers : ∀ {members after}, Draft.AreDistinct members →
          some ((Draft.table .header members).toToml, after) = some (v, rest) → v.IsDistinct := by
        intro members after hmembers h
        obtain ⟨rfl, -⟩ := Prod.mk.inj (Option.some.inj h)
        exact (Draft.isDistinct_table_iff.mpr hmembers).toToml
      split at h
      · exact hmembers .empty h
      · obtain ⟨⟨members, after⟩, hread, h⟩ := Option.bind_eq_some_iff.mp h
        exact hmembers (ih.members .empty hread) h
  · obtain ⟨v, hv, h⟩ := Option.map_eq_some_iff.mp h
    obtain ⟨rfl, -⟩ := Prod.mk.inj h
    exact isDistinct_ofWord hv

theorem items_succ (ih : TakesDistinct supply) {items : List Toml}
    (h : takeItems (supply + 1) depth cs = some (items, rest)) :
    ∀ item ∈ items, item.IsDistinct := by
  unfold takeItems at h
  obtain ⟨front, -, h⟩ := Option.bind_eq_some_iff.mp h
  split at h
  · obtain ⟨rfl, -⟩ := Prod.mk.inj (Option.some.inj h)
    simp
  · obtain ⟨⟨item, after⟩, hitem, h⟩ := Option.bind_eq_some_iff.mp h
    obtain ⟨next, -, h⟩ := Option.bind_eq_some_iff.mp h
    split at h
    · obtain ⟨rfl, -⟩ := Prod.mk.inj (Option.some.inj h)
      exact List.forall_mem_singleton.mpr (ih.value hitem)
    · obtain ⟨⟨others, last⟩, hothers, h⟩ := Option.bind_eq_some_iff.mp h
      obtain ⟨rfl, -⟩ := Prod.mk.inj (Option.some.inj h)
      exact List.forall_mem_cons.mpr ⟨ih.value hitem, ih.items hothers⟩
    · contradiction

theorem members_succ (ih : TakesDistinct supply) {members out : List (String × Draft)}
    (hmembers : Draft.AreDistinct members)
    (h : takeMembers (supply + 1) depth cs members = some (out, rest)) :
    Draft.AreDistinct out := by
  unfold takeMembers at h
  obtain ⟨⟨key, after⟩, -, h⟩ := Option.bind_eq_some_iff.mp h
  dsimp only at h
  split at h
  · obtain ⟨⟨v, next⟩, hv, h⟩ := Option.bind_eq_some_iff.mp h
    obtain ⟨added, hadded, h⟩ := Option.bind_eq_some_iff.mp h
    have hdistinct := hmembers.addEntry (ih.value hv) hadded
    split at h
    · obtain ⟨rfl, -⟩ := Prod.mk.inj (Option.some.inj h)
      exact hdistinct
    · exact ih.members hdistinct h
    · contradiction
  · contradiction

end TakesDistinct

theorem takesDistinct (supply : Nat) :
    TakesDistinct supply := by
  induction supply with
  | zero => constructor <;> simp [takeValue, takeItems, takeMembers]
  | succ supply ih => exact ⟨ih.value_succ, ih.items_succ, ih.members_succ⟩

/-- A line keeps the keys of a document distinct. -/
theorem areDistinct_readLine {p q : Progress} {cs rest : List Char}
    (hp : Draft.AreDistinct p.members) (h : readLine p cs = some (q, rest)) :
    Draft.AreDistinct q.members := by
  unfold readLine at h
  split at h
  · obtain ⟨⟨key, after⟩, -, h⟩ := Option.bind_eq_some_iff.mp h
    obtain ⟨members, hmembers, h⟩ := Option.bind_eq_some_iff.mp h
    obtain ⟨rfl, -⟩ := Prod.mk.inj (Option.some.inj h)
    exact hp.openItem hmembers
  · obtain ⟨⟨key, after⟩, -, h⟩ := Option.bind_eq_some_iff.mp h
    obtain ⟨members, hmembers, h⟩ := Option.bind_eq_some_iff.mp h
    obtain ⟨rfl, -⟩ := Prod.mk.inj (Option.some.inj h)
    exact hp.openTable hmembers
  · obtain ⟨⟨key, after⟩, -, h⟩ := Option.bind_eq_some_iff.mp h
    dsimp only at h
    split at h
    · obtain ⟨⟨v, next⟩, hv, h⟩ := Option.bind_eq_some_iff.mp h
      obtain ⟨members, hmembers, h⟩ := Option.bind_eq_some_iff.mp h
      obtain ⟨rfl, -⟩ := Prod.mk.inj (Option.some.inj h)
      exact hp.addAt ((takesDistinct _).value hv) hmembers
    · contradiction

theorem areDistinct_readLines {supply : Nat} {p q : Progress} {cs : List Char}
    (hp : Draft.AreDistinct p.members) (h : readLines supply p cs = some q) :
    Draft.AreDistinct q.members := by
  induction supply generalizing p cs with
  | zero => contradiction
  | succ supply ih =>
    unfold readLines at h
    obtain ⟨front, -, h⟩ := Option.bind_eq_some_iff.mp h
    split at h
    · obtain rfl := Option.some.inj h
      exact hp
    · obtain ⟨⟨next, rest⟩, hline, h⟩ := Option.bind_eq_some_iff.mp h
      have hnext := areDistinct_readLine hp hline
      obtain ⟨rest, -, h⟩ := Option.bind_eq_some_iff.mp h
      split at h
      · obtain rfl := Option.some.inj h
        exact hnext
      · obtain ⟨rest, -, h⟩ := Option.bind_eq_some_iff.mp h
        exact ih hnext h

/-- A document gives no key of a table twice. -/
theorem areDistinct_of_parse {s : String} {members : List (String × Toml)}
    (h : parse s = some members) :
    AreDistinct members := by
  obtain ⟨p, hp, rfl⟩ := Option.map_eq_some_iff.mp h
  exact (areDistinct_readLines .empty hp).toToml

end ConversationSearch.Toml
