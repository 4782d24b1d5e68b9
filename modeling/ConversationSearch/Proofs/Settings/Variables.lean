import ConversationSearch.Proofs.Settings.Sections
import ConversationSearch.Proofs.Text.Numerals
import ConversationSearch.Settings.Layers

/-!
# Texts in variables

A variable is read as a truth value, an integer or a decimal where its text is that of one, whatever
the setting is for. A setting that is a text is then the text of that value: so `007` becomes `7`,
and only texts that are written as their value is, or that are no value at all, are taken as they
stand. A text in a variable never keeps settings from being loaded.
-/

namespace ConversationSearch

namespace Settings

/-- The settings that are texts. -/
inductive TextSetting
  | host
  | url
  | usernameEnv
  | passwordEnv
  | conversationsIndex
  | messagesIndex
  | logLevel

namespace TextSetting

/-- The section of a setting. -/
def part : TextSetting → String
  | host => "server"
  | logLevel => "observability"
  | _ => "index"

/-- The name of a setting within its section. -/
def name : TextSetting → String
  | host => "host"
  | url => "url"
  | usernameEnv => "username_env"
  | passwordEnv => "password_env"
  | conversationsIndex => "conversations_index"
  | messagesIndex => "messages_index"
  | logLevel => "log_level"

/-- The path of a setting. -/
def path (k : TextSetting) : String :=
  k.part ++ "." ++ k.name

/-- The text of a setting; two of them may be absent. -/
def get? (s : Settings) : TextSetting → Option String
  | host => s.server.host
  | url => s.index.url
  | usernameEnv => s.index.usernameEnv
  | passwordEnv => s.index.passwordEnv
  | conversationsIndex => s.index.conversationsIndex
  | messagesIndex => s.index.messagesIndex
  | logLevel => s.observability.logLevel

/-- The variable holds no setting, or its path leads neither to this setting nor to the section of
this setting as a whole. -/
def IsOther (k : TextSetting) (variableName : String) : Prop :=
  ∀ path, variablePath? variableName = some path →
    Node.LeadsElsewhere k.part k.name (PathStep.ofText path)

end TextSetting

/-- The integer fits sixty-four bits with a sign. -/
def Fits (n : Int) : Prop :=
  -9223372036854775808 ≤ n ∧ n ≤ 9223372036854775807

/-- The text that a variable's text is taken as. A text is read as a truth value in any letter case,
else as an integer that fits sixty-four bits, else as a decimal, and taken as it stands if it is
none of these. -/
inductive TakenAs (v : String) : String → Prop
  | truth {b : Bool} (hword : Text.lower v = Seen.boolText b) : TakenAs v (Seen.boolText b)
  | integer {n : Int} (hword : ∀ b, Text.lower v ≠ Seen.boolText b)
      (hn : Text.IsInteger v.toList n) (hfits : Fits n) : TakenAs v (toString n)
  | decimal {d : Json.Double} (hword : ∀ b, Text.lower v ≠ Seen.boolText b)
      (hinteger : ∀ n, Text.IsInteger v.toList n → ¬Fits n) (hd : Text.IsDecimal v.toList d) :
      TakenAs v (String.ofList d.plainText)
  | verbatim (hword : ∀ b, Text.lower v ≠ Seen.boolText b)
      (hinteger : ∀ n, Text.IsInteger v.toList n → ¬Fits n)
      (hdecimal : ∀ d, ¬Text.IsDecimal v.toList d) : TakenAs v v

/-! ## What a text is taken as -/

section Taken

variable {v t : String}

theorem exists_takenAs (v : String) :
    ∃ t, TakenAs v t := by
  by_cases hword : ∃ b, Text.lower v = Seen.boolText b
  · obtain ⟨b, hb⟩ := hword
    exact ⟨_, .truth hb⟩
  · have hword : ∀ b, Text.lower v ≠ Seen.boolText b := not_exists.mp hword
    by_cases hinteger : ∃ n, Text.IsInteger v.toList n ∧ Fits n
    · obtain ⟨n, hn, hfits⟩ := hinteger
      exact ⟨_, .integer hword hn hfits⟩
    · have hinteger : ∀ n, Text.IsInteger v.toList n → ¬Fits n :=
        fun n hn hfits => hinteger ⟨n, hn, hfits⟩
      by_cases hdecimal : ∃ d, Text.IsDecimal v.toList d
      · obtain ⟨d, hd⟩ := hdecimal
        exact ⟨_, .decimal hword hinteger hd⟩
      · exact ⟨_, .verbatim hword hinteger (not_exists.mp hdecimal)⟩

theorem fitsWord_eq_true_iff {n : Int} :
    Text.fitsWord n = true ↔ Fits n := by
  simp [Text.fitsWord, Fits]

theorem integer?_filter_eq_none (hinteger : ∀ n, Text.IsInteger v.toList n → ¬Fits n) :
    (Text.integer? v.toList).filter Text.fitsWord = none := by
  rw [Option.filter_eq_none_iff]
  intro n hn hfits
  exact hinteger n (Text.integer?_eq_some_iff.mp hn) (fitsWord_eq_true_iff.mp hfits)

theorem ne_words (hword : ∀ b, Text.lower v ≠ Seen.boolText b) :
    Text.lower v ≠ "true" ∧ Text.lower v ≠ "false" :=
  ⟨hword true, hword false⟩

/-- The value that a variable is read as has the text that its text is taken as. -/
theorem TakenAs.text_eq (h : TakenAs v t) (origin : Option String) :
    Typed.text (.scalar origin (variableScalar v)) = .ok t := by
  cases h with
  | @truth b hword =>
    have hscalar : variableScalar v = .bool b := by
      rw [variableScalar, hword]
      cases b <;> rfl
    rw [hscalar, Typed.text]
  | @integer n hword hn hfits =>
    have hinteger : (Text.integer? v.toList).filter Text.fitsWord = some n := by
      rw [Text.integer?_eq_some_iff.mpr hn, Option.filter, if_pos (fitsWord_eq_true_iff.mpr hfits)]
    have hscalar : variableScalar v = .int n := by
      simp [variableScalar, ne_words hword, hinteger]
    rw [hscalar, Typed.text, Text.ofList_integer]
  | @decimal d hword hinteger hd =>
    have hscalar : variableScalar v = .real d := by
      simp [variableScalar, ne_words hword, integer?_filter_eq_none hinteger,
        Text.real?_eq_some_iff.mpr hd]
    rw [hscalar, Typed.text]
  | verbatim hword hinteger hdecimal =>
    have hreal : Text.real? v.toList = none := by
      rw [Option.eq_none_iff_forall_ne_some]
      exact fun d hd => hdecimal d (Text.real?_eq_some_iff.mp hd)
    have hscalar : variableScalar v = .string v := by
      simp [variableScalar, ne_words hword, integer?_filter_eq_none hinteger, hreal]
    rw [hscalar, Typed.text]

/-- A text is taken as one text only. -/
theorem exists_takenAs_iff (v : String) (origin : Option String) :
    ∃ t, Typed.text (.scalar origin (variableScalar v)) = .ok t ∧ ∀ u, TakenAs v u ↔ u = t := by
  obtain ⟨t, ht⟩ := exists_takenAs v
  refine ⟨t, ht.text_eq origin, fun u => ⟨?_, fun h => h ▸ ht⟩⟩
  intro hu
  exact Except.ok.inj ((hu.text_eq origin).symm.trans (ht.text_eq origin))

end Taken

/-! ## Loading -/

variable {k : TextSetting} {origin : Option String} {members : List (String × Node)}
  {value : Node} {t : String}

theorem TextSetting.ofText_path (k : TextSetting) :
    PathStep.ofText k.path = [.key k.part, .key k.name] := by
  cases k <;> decide +kernel

theorem TextSetting.lower_part (k : TextSetting) :
    Text.lower k.part = k.part ∧ Text.lower k.name = k.name := by
  cases k <;> decide +kernel

theorem text?_of_text (hvalue : Typed.text value = .ok t) :
    Typed.text? value = .ok (some t) := by
  cases value with
  | unset => contradiction
  | scalar origin s => exact map_eq_ok.mpr ⟨t, hvalue, rfl⟩
  | list origin items => contradiction
  | table origin members => contradiction

/-- What is held for a setting that is a text is found in the settings. -/
theorem get?_of_ofNode {root other : Node} {s : Settings}
    (h : Node.Supplies k.part k.name value root other) (hs : Settings.ofNode other = .ok s)
    (hvalue : Typed.text value = .ok t) :
    k.get? s = some t := by
  obtain ⟨origin, parts, rfl⟩ := h.isTable_other
  obtain ⟨_, hpart, origin', settings, rfl⟩ := h.holder
  obtain ⟨_, ⟨⟩, hserver, hindex, hobservability⟩ := Settings.ofNode_eq_ok_iff.mp hs
  have hheld : settings.lookup k.name = some value := by
    have hheld := h.held
    rwa [hpart] at hheld
  cases k with
  | host =>
    obtain ⟨_, ⟨⟩, hhost, -⟩ :=
      ServerSettings.ofNode_eq_ok_iff.mp (SectionParts.typed_of_setting hpart hserver)
    exact congrArg some (SectionParts.eq_of_setting hheld hvalue hhost)
  | url =>
    obtain ⟨_, ⟨⟩, hurl, -⟩ :=
      IndexSettings.ofNode_eq_ok_iff.mp (SectionParts.typed_of_setting hpart hindex)
    exact congrArg some (SectionParts.eq_of_setting hheld hvalue hurl)
  | usernameEnv =>
    obtain ⟨_, ⟨⟩, -, huser, -⟩ :=
      IndexSettings.ofNode_eq_ok_iff.mp (SectionParts.typed_of_setting hpart hindex)
    exact SectionParts.eq_of_setting hheld (text?_of_text hvalue) huser
  | passwordEnv =>
    obtain ⟨_, ⟨⟩, -, -, hpassword, -⟩ :=
      IndexSettings.ofNode_eq_ok_iff.mp (SectionParts.typed_of_setting hpart hindex)
    exact SectionParts.eq_of_setting hheld (text?_of_text hvalue) hpassword
  | conversationsIndex =>
    obtain ⟨_, ⟨⟩, -, -, -, -, -, -, -, -, -, -, hconversations, -⟩ :=
      IndexSettings.ofNode_eq_ok_iff.mp (SectionParts.typed_of_setting hpart hindex)
    exact congrArg some (SectionParts.eq_of_setting hheld hvalue hconversations)
  | messagesIndex =>
    obtain ⟨_, ⟨⟩, -, -, -, -, -, -, -, -, -, -, -, hmessages⟩ :=
      IndexSettings.ofNode_eq_ok_iff.mp (SectionParts.typed_of_setting hpart hindex)
    exact congrArg some (SectionParts.eq_of_setting hheld hvalue hmessages)
  | logLevel =>
    obtain ⟨_, ⟨⟩, hlevel, -⟩ :=
      ObservabilitySettings.ofNode_eq_ok_iff.mp
        (SectionParts.typed_of_setting hpart hobservability)
    exact congrArg some (SectionParts.eq_of_setting hheld hvalue hlevel)

/-! ## What can still be read -/

theorem exists_text (origin : Option String) (s : Scalar) :
    ∃ t, Typed.text (.scalar origin s) = .ok t := by
  cases s <;> exact ⟨_, rfl⟩

theorem exists_text? (origin : Option String) (s : Scalar) :
    ∃ t, Typed.text? (.scalar origin s) = .ok t := by
  obtain ⟨t, ht⟩ := exists_text origin s
  exact ⟨some t, text?_of_text ht⟩

/-- The names of the settings that are no texts. -/
def otherNames : List String :=
  ["http_port", "request_timeout_ms", "max_retries", "retry_backoff_ms", "accept_invalid_certs",
    "compression", "enable_highlighting", "preflight_ping", "json_logs"]

theorem TextSetting.ne_name (k : TextSetting) {other : String} (hother : other ∈ otherNames) :
    other ≠ k.name := by
  rintro rfl
  cases k <;> simp [otherNames, name] at hother

section Refilled

variable {source : Node} {heldOrigin : Option String} {held : Scalar}
  (hsame : Node.SameBut k.name (some source) (some (.table origin members)))
  (hheld : members.lookup k.name = some (.scalar heldOrigin held))

include hsame hheld

theorem exists_other_setting {α : Type} {kind key : String} {parts : SectionParts} {position : Nat}
    {typed : Typed α} {default a : α} (hparts : SectionParts.ofNode kind source = .ok parts)
    (hkey : key ∈ otherNames) (h : parts.setting position key typed default = .ok a) :
    ∃ b, (SectionParts.named members).setting position key typed default = .ok b :=
  SectionParts.exists_setting hparts hsame hheld (fun heq => absurd heq (k.ne_name hkey)) h

theorem exists_text_setting {kind key : String} {parts : SectionParts} {position : Nat}
    {default a : String} (hparts : SectionParts.ofNode kind source = .ok parts)
    (h : parts.setting position key Typed.text default = .ok a) :
    ∃ b, (SectionParts.named members).setting position key Typed.text default = .ok b :=
  SectionParts.exists_setting hparts hsame hheld (fun _ => exists_text heldOrigin held) h

theorem exists_text?_setting {kind key : String} {parts : SectionParts} {position : Nat}
    {default a : Option String} (hparts : SectionParts.ofNode kind source = .ok parts)
    (h : parts.setting position key Typed.text? default = .ok a) :
    ∃ b, (SectionParts.named members).setting position key Typed.text? default = .ok b :=
  SectionParts.exists_setting hparts hsame hheld (fun _ => exists_text? heldOrigin held) h

theorem exists_server {s : ServerSettings} (h : ServerSettings.ofNode source = .ok s) :
    ∃ s', ServerSettings.ofNode (.table origin members) = .ok s' := by
  obtain ⟨parts, hparts, hhost, hport⟩ := ServerSettings.ofNode_eq_ok_iff.mp h
  obtain ⟨host, hhost⟩ := exists_text_setting hsame hheld hparts hhost
  obtain ⟨port, hport⟩ := exists_other_setting hsame hheld hparts (by simp [otherNames]) hport
  exact ⟨⟨host, port⟩, ServerSettings.ofNode_eq_ok_iff.mpr ⟨_, rfl, hhost, hport⟩⟩

theorem exists_observability {s : ObservabilitySettings}
    (h : ObservabilitySettings.ofNode source = .ok s) :
    ∃ s', ObservabilitySettings.ofNode (.table origin members) = .ok s' := by
  obtain ⟨parts, hparts, hlevel, hlogs⟩ := ObservabilitySettings.ofNode_eq_ok_iff.mp h
  obtain ⟨level, hlevel⟩ := exists_text_setting hsame hheld hparts hlevel
  obtain ⟨logs, hlogs⟩ := exists_other_setting hsame hheld hparts (by simp [otherNames]) hlogs
  exact ⟨⟨level, logs⟩, ObservabilitySettings.ofNode_eq_ok_iff.mpr ⟨_, rfl, hlevel, hlogs⟩⟩

theorem exists_index {s : IndexSettings} (h : IndexSettings.ofNode source = .ok s) :
    ∃ s', IndexSettings.ofNode (.table origin members) = .ok s' := by
  obtain ⟨parts, hparts, hurl, huser, hpassword, htimeout, hretries, hbackoff, hcerts,
    hcompression, hhighlighting, hping, hconversations, hmessages⟩ :=
      IndexSettings.ofNode_eq_ok_iff.mp h
  have hother : ∀ {α : Type} {key : String} {position : Nat} {typed : Typed α} {default a : α},
      key ∈ otherNames → parts.setting position key typed default = .ok a →
        ∃ b, (SectionParts.named members).setting position key typed default = .ok b :=
    exists_other_setting hsame hheld hparts
  obtain ⟨url, hurl⟩ := exists_text_setting hsame hheld hparts hurl
  obtain ⟨user, huser⟩ := exists_text?_setting hsame hheld hparts huser
  obtain ⟨password, hpassword⟩ := exists_text?_setting hsame hheld hparts hpassword
  obtain ⟨timeout, htimeout⟩ := hother (by simp [otherNames]) htimeout
  obtain ⟨retries, hretries⟩ := hother (by simp [otherNames]) hretries
  obtain ⟨backoff, hbackoff⟩ := hother (by simp [otherNames]) hbackoff
  obtain ⟨certs, hcerts⟩ := hother (by simp [otherNames]) hcerts
  obtain ⟨compression, hcompression⟩ := hother (by simp [otherNames]) hcompression
  obtain ⟨highlighting, hhighlighting⟩ := hother (by simp [otherNames]) hhighlighting
  obtain ⟨ping, hping⟩ := hother (by simp [otherNames]) hping
  obtain ⟨conversations, hconversations⟩ := exists_text_setting hsame hheld hparts hconversations
  obtain ⟨messages, hmessages⟩ := exists_text_setting hsame hheld hparts hmessages
  exact ⟨⟨url, user, password, timeout, retries, backoff, certs, compression, highlighting, ping,
    conversations, messages⟩, IndexSettings.ofNode_eq_ok_iff.mpr ⟨_, rfl, hurl, huser, hpassword,
      htimeout, hretries, hbackoff, hcerts, hcompression, hhighlighting, hping, hconversations,
      hmessages⟩⟩

end Refilled

/-- A section that can be read of the first root can be read of the second. -/
theorem exists_part {α : Type} {typed : Typed α} {default a : α} {position : Nat} {key : String}
    {rootOrigin otherOrigin heldOrigin : Option String} {held : Scalar}
    {settings others : List (String × Node)}
    (h : Node.Supplies k.part k.name (.scalar heldOrigin held) (.table rootOrigin settings)
      (.table otherOrigin others))
    (ha : (SectionParts.named settings).setting position key typed default = .ok a)
    (hempty : typed Node.empty = .ok default)
    (htyped : ∀ {source : Node} {origin : Option String} {members : List (String × Node)},
      Node.SameBut k.name (some source) (some (.table origin members)) →
      members.lookup k.name = some (.scalar heldOrigin held) →
        ∀ {s : α}, typed source = .ok s → ∃ s', typed (.table origin members) = .ok s') :
    ∃ b, (SectionParts.named others).setting position key typed default = .ok b := by
  by_cases hkey : key = k.part
  · subst hkey
    have hsource := SectionParts.typed_getD_of_setting hempty ha
    have hmember := fun name => Node.member?_getD_empty name (settings.lookup k.part)
    obtain ⟨_, hpart, origin, members, rfl⟩ := h.holder
    have hlookup : others.lookup k.part = some (.table origin members) := hpart
    have hheld := h.held
    have hsame := h.same_settings
    rw [hpart] at hheld hsame
    obtain ⟨b, hb⟩ := htyped (fun name hname => (hsame name hname).trans (hmember name).symm)
      hheld hsource
    rw [SectionParts.setting_of_held hlookup]
    exact ⟨b, mapError_eq_ok.mpr hb⟩
  · exact ⟨a, (SectionParts.setting_congr (h.same_parts key hkey) position).trans ha⟩

/-- Settings that can be read of the first root can be read of the second. -/
theorem exists_ofNode {root other : Node} {heldOrigin : Option String} {held : Scalar}
    {s : Settings} (h : Node.Supplies k.part k.name (.scalar heldOrigin held) root other)
    (hs : Settings.ofNode root = .ok s) :
    ∃ s', Settings.ofNode other = .ok s' := by
  obtain ⟨rootOrigin, settings, rfl⟩ := h.isTable
  obtain ⟨otherOrigin, others, rfl⟩ := h.isTable_other
  obtain ⟨_, ⟨⟩, hserver, hindex, hobservability⟩ := Settings.ofNode_eq_ok_iff.mp hs
  obtain ⟨server, hserver⟩ := exists_part h hserver rfl exists_server
  obtain ⟨index, hindex⟩ := exists_part h hindex rfl exists_index
  obtain ⟨observability, hobservability⟩ :=
    exists_part h hobservability rfl exists_observability
  exact ⟨⟨server, index, observability⟩,
    Settings.ofNode_eq_ok_iff.mpr ⟨_, rfl, hserver, hindex, hobservability⟩⟩

/-! ## Environments -/

/-- The layer of an environment has the layers of its parts one after the other. -/
theorem environmentLayer_append (before after : Environment) :
    environmentLayer (before ++ after) = environmentLayer before ++ environmentLayer after :=
  List.filterMap_append

theorem environmentLayer_cons {variableName path : String}
    (hname : variablePath? variableName = some path) (v : String) (after : Environment) :
    environmentLayer ((variableName, v) :: after) =
      (path, .scalar (some environmentOrigin) (variableScalar v)) :: environmentLayer after := by
  simp [environmentLayer, hname]

theorem leadsElsewhere_of_isOther {env : Environment} (henv : ∀ entry ∈ env, k.IsOther entry.1) :
    ∀ entry ∈ environmentLayer env,
      Node.LeadsElsewhere k.part k.name (PathStep.ofText entry.1) := by
  intro entry hentry
  obtain ⟨source, hsource, hlayer⟩ := List.mem_filterMap.mp hentry
  obtain ⟨path, hpath, rfl⟩ := Option.map_eq_some_iff.mp hlayer
  exact henv source hsource path hpath

/-- What the defaults, a file and an environment hold together. -/
def layered (fromFile : List (String × Node)) (env : Environment) : Node :=
  ((Node.empty.overlay defaultLayer).overlay fromFile).overlay (environmentLayer env)

/-- Every entry of the defaults, a file and an environment has its place. -/
def HavePlaces (fromFile : List (String × Node)) (env : Environment) : Prop :=
  Node.empty.hasPlaces (defaultLayer ++ fromFile ++ environmentLayer env)

theorem layered_append (fromFile : List (String × Node)) (before after : Environment) :
    layered fromFile (before ++ after) =
      (layered fromFile before).overlay (environmentLayer after) := by
  rw [layered, layered, environmentLayer_append, Node.overlay_append]

theorem havePlaces_append_iff {fromFile : List (String × Node)} {before after : Environment} :
    HavePlaces fromFile (before ++ after) ↔
      HavePlaces fromFile before ∧ (layered fromFile before).hasPlaces (environmentLayer after) := by
  rw [HavePlaces, HavePlaces, layered, environmentLayer_append, ← List.append_assoc,
    Node.hasPlaces_append, Bool.and_eq_true, Node.overlay_append, Node.overlay_append]

theorem load_eq_ok_iff {file : Option File} {env : Environment} {s : Settings} :
    load file env = .ok s ↔ ∃ fromFile, fileLayer file = .ok fromFile ∧
      HavePlaces fromFile env ∧ Settings.ofNode (layered fromFile env) = .ok s := by
  rw [load, bind_eq_ok]
  refine exists_congr fun fromFile => and_congr_right fun _ => ?_
  dsimp only
  split
  case isTrue hplaces => exact (and_iff_right hplaces).symm
  case isFalse hplaces => exact ⟨nofun, fun h => absurd h.1 hplaces⟩

section Variable

variable {variableName : String} (hname : variablePath? variableName = some k.path)
  {after : Environment} (v : String) (fromFile : List (String × Node)) (before : Environment)

include hname

/-- A variable for a setting that is a text changes that setting alone. -/
theorem supplies_put_variable :
    Node.Supplies k.part k.name (.scalar (some environmentOrigin) (variableScalar v))
      (layered fromFile before) (layered fromFile (before ++ [(variableName, v)])) := by
  obtain ⟨hpart, hsetting⟩ := k.lower_part
  have hempty : Node.empty.IsTable := ⟨_, _, rfl⟩
  have hbefore := Node.isTable_overlay (Node.isTable_overlay
    (Node.isTable_overlay hempty defaultLayer) fromFile) (environmentLayer before)
  have hput := Node.supplies_put hbefore hpart hsetting (some environmentOrigin) (variableScalar v)
  rw [← k.ofText_path] at hput
  rw [layered_append, environmentLayer_cons hname]
  exact hput

/-- A variable whose setting no later variable leads to changes that setting alone. -/
theorem supplies_variable (hafter : ∀ entry ∈ after, k.IsOther entry.1) :
    Node.Supplies k.part k.name (.scalar (some environmentOrigin) (variableScalar v))
      (layered fromFile (before ++ after))
      (layered fromFile (before ++ (variableName, v) :: after)) := by
  have hput := supplies_put_variable hname v fromFile before
  have happend : before ++ (variableName, v) :: after = before ++ [(variableName, v)] ++ after :=
    List.append_cons before (variableName, v) after
  rw [happend, layered_append _ before, layered_append _ (before ++ [(variableName, v)])]
  exact hput.overlay (leadsElsewhere_of_isOther hafter)

/-- A variable whose setting no later variable leads to takes no place away. -/
theorem havePlaces_variable (hafter : ∀ entry ∈ after, k.IsOther entry.1)
    (h : HavePlaces fromFile (before ++ after)) :
    HavePlaces fromFile (before ++ (variableName, v) :: after) := by
  obtain ⟨hbefore, hplaces⟩ := havePlaces_append_iff.mp h
  have hput := supplies_put_variable hname v fromFile before
  have hown : (layered fromFile before).hasPlaces (environmentLayer [(variableName, v)]) := by
    rw [environmentLayer_cons hname, Node.hasPlaces_cons, k.ofText_path]
    rfl
  rw [List.append_cons, havePlaces_append_iff, havePlaces_append_iff,
    hput.hasPlaces_eq (leadsElsewhere_of_isOther hafter)]
  exact ⟨⟨hbefore, hown⟩, hplaces⟩

end Variable

/-- If no other variable leads to a setting that is a text, or to its section as a whole, then the
setting is what the text of its own variable is taken as, whatever stands in the file. The variable
does not keep settings from being loaded. A text is taken as one text only, and as it stands unless
it is that of a truth value, of an integer of sixty-four bits or of a decimal; then it is taken as
the text that this value has. -/
theorem text_of_variable (k : TextSetting) {variableName : String}
    (hname : variablePath? variableName = some k.path) (before after : Environment)
    (hothers : ∀ entry ∈ before ++ after, k.IsOther entry.1) (file : Option File) (v : String) :
    (∀ s, load file (before ++ (variableName, v) :: after) = .ok s →
      ∃ t, k.get? s = some t ∧ ∀ u, TakenAs v u ↔ u = t) ∧
    ((∃ s, load file (before ++ after) = .ok s) →
      ∃ s, load file (before ++ (variableName, v) :: after) = .ok s) := by
  have hafter : ∀ entry ∈ after, k.IsOther entry.1 :=
    fun entry hentry => hothers entry (List.mem_append_right _ hentry)
  constructor
  · intro s hs
    obtain ⟨fromFile, -, -, hs⟩ := load_eq_ok_iff.mp hs
    obtain ⟨t, ht, htaken⟩ := exists_takenAs_iff v (some environmentOrigin)
    exact ⟨t, get?_of_ofNode (supplies_variable hname v fromFile before hafter) hs ht, htaken⟩
  · rintro ⟨s, hs⟩
    obtain ⟨fromFile, hfile, hplaces, hs⟩ := load_eq_ok_iff.mp hs
    obtain ⟨s', hs'⟩ := exists_ofNode (supplies_variable hname v fromFile before hafter) hs
    exact ⟨s', load_eq_ok_iff.mpr
      ⟨fromFile, hfile, havePlaces_variable hname v fromFile before hafter hplaces, hs'⟩⟩

/-- Digits with zeros in front are not taken as they stand: the index would have another name. -/
theorem number_not_taken_verbatim :
    let env : Environment := [("THREADSEEK__INDEX__MESSAGES_INDEX", "007")]
    variablePath? "THREADSEEK__INDEX__MESSAGES_INDEX" = some TextSetting.messagesIndex.path ∧
      ∃ s, load none env = .ok s ∧ TextSetting.messagesIndex.get? s = some "7" ∧
        TextSetting.messagesIndex.get? s ≠ some "007" := by
  intro env
  have htext : (load none env).toOption.map (TextSetting.messagesIndex.get? ·) =
      some (some "7") := by
    decide +kernel
  obtain ⟨s, hs, hget⟩ := Option.map_eq_some_iff.mp htext
  have hpath : variablePath? "THREADSEEK__INDEX__MESSAGES_INDEX" =
      some TextSetting.messagesIndex.path := by
    decide +kernel
  refine ⟨hpath, s, eq_ok_of_toOption hs, hget, ?_⟩
  rw [hget]
  decide

theorem takenAs_of_name :
    TakenAs "notes-2024" "notes-2024" := by
  have hword : ∀ b, Text.lower "notes-2024" ≠ Seen.boolText b := by decide +kernel
  have hinteger : Text.integer? "notes-2024".toList = none := by decide +kernel
  have hreal : Text.real? "notes-2024".toList = none := by decide +kernel
  refine .verbatim hword ?_ ?_
  · intro n hn
    rw [Text.integer?_eq_some_iff.mpr hn] at hinteger
    exact absurd hinteger (Option.some_ne_none n)
  · intro d hd
    rw [Text.real?_eq_some_iff.mpr hd] at hreal
    exact absurd hreal (Option.some_ne_none d)

theorem takenAs_of_zeros :
    TakenAs "007" "7" := by
  have hword : ∀ b, Text.lower "007" ≠ Seen.boolText b := by decide +kernel
  have hn : Text.IsInteger "007".toList 7 := Text.integer?_eq_some_iff.mp (by decide +kernel)
  exact .integer hword hn ⟨by decide, by decide⟩

/-- Beside a variable for another setting of its section and one for none, the name of an index is
taken as it stands, and digits are taken as their number. -/
theorem index_name_beside_other_variables :
    let before : Environment := [("THREADSEEK__INDEX__MAX_RETRIES", "5")]
    let after : Environment := [("HOME", "/root")]
    let variableName := "THREADSEEK__INDEX__MESSAGES_INDEX"
    let k := TextSetting.messagesIndex
    variablePath? variableName = some k.path ∧
      (∀ entry ∈ before ++ after, k.IsOther entry.1) ∧
      (∃ s, load none (before ++ after) = .ok s) ∧
      ∀ v t, (v, t) ∈ [("notes-2024", "notes-2024"), ("007", "7")] →
        ∃ s, load none (before ++ (variableName, v) :: after) = .ok s ∧ k.get? s = some t := by
  intro before after variableName k
  have hname : variablePath? variableName = some k.path := by decide +kernel
  have hothers : ∀ entry ∈ before ++ after, k.IsOther entry.1 := by
    have hretries : variablePath? "THREADSEEK__INDEX__MAX_RETRIES" =
        some "index.max_retries" := by
      decide +kernel
    have hhome : variablePath? "HOME" = none := by decide +kernel
    have hsteps : PathStep.ofText "index.max_retries" = [.key "index", .key "max_retries"] := by
      decide +kernel
    simp only [before, after, List.cons_append, List.nil_append, List.forall_mem_cons]
    refine ⟨?_, ?_, by simp⟩
    · intro path hpath
      obtain rfl := Option.some.inj (hretries.symm.trans hpath)
      rw [hsteps]
      exact .setting (by decide +kernel) (by decide +kernel)
    · intro path hpath
      exact absurd (hhome.symm.trans hpath).symm (Option.some_ne_none path)
  have hload : ∃ s, load none (before ++ after) = .ok s := by
    have hisOk : (load none (before ++ after)).toOption.isSome = true := by decide +kernel
    obtain ⟨s, hs⟩ := Option.isSome_iff_exists.mp hisOk
    exact ⟨s, eq_ok_of_toOption hs⟩
  refine ⟨hname, hothers, hload, fun v t hmem => ?_⟩
  obtain ⟨htext, hloads⟩ := text_of_variable k hname before after hothers none v
  obtain ⟨s, hs⟩ := hloads hload
  obtain ⟨found, hfound, htaken⟩ := htext s hs
  have hvt : TakenAs v t := by
    simp only [List.mem_cons, Prod.mk.injEq, List.not_mem_nil, or_false] at hmem
    rcases hmem with ⟨rfl, rfl⟩ | ⟨rfl, rfl⟩
    · exact takenAs_of_name
    · exact takenAs_of_zeros
  exact ⟨s, hs, (htaken t).mp hvt ▸ hfound⟩

end Settings
end ConversationSearch
