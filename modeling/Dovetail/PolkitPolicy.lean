import Dovetail.DaemonPlists
import Dovetail.UpdaterManifest

/-!
# Policies of polkit

`PolkitPolicy` checks that its actions live under its namespace, each once,
and writes them with every text escaped.  The identifier of an action is an
attribute, where white space is normalized as well.
-/

namespace Dovetail.Bundler

open CodeUnits XmlDocuments XmlValues
open MarkupText (text_join text_join_last)

inductive PolkitAuthorization where
  | no
  | yes
  | authSelf
  | authSelfKeep
  | authAdmin
  | authAdminKeep
  deriving DecidableEq

def PolkitAuthorization.wireName : PolkitAuthorization → String
  | .no => "no"
  | .yes => "yes"
  | .authSelf => "auth_self"
  | .authSelfKeep => "auth_self_keep"
  | .authAdmin => "auth_admin"
  | .authAdminKeep => "auth_admin_keep"

structure PolkitAction where
  id : Text
  description : Text
  message : Text
  iconName : Option Text
  allowAny : PolkitAuthorization
  allowInactive : PolkitAuthorization
  allowActive : PolkitAuthorization

structure PolkitSettings where
  scope : Text
  vendor : Text
  actions : List PolkitAction
  vendorUrl : Option Text

namespace PolkitSettings

variable (settings : PolkitSettings)

def foreign : List Text :=
  (settings.actions.map (·.id)).filter fun id =>
    !(settings.scope ++ text ".").isPrefixOf id

/-- The first identifier that was seen before. -/
def repeated : List Text → List Text → Option Text
  | _, [] => none
  | seen, id :: rest =>
      if id ∈ seen then some id else repeated (id :: seen) rest

/-- The checks of the constructor, in its order. -/
def check : Except BundleFailure Unit :=
  if 46 ∉ settings.scope then
    .error
      { message := text "the polkit namespace \"" ++ settings.scope ++
          text "\" is not a reverse-domain name."
        remedy := some (text "Write it as com.example.app.") }
  else if settings.actions = [] then
    .error
      { message := text "the policy declares no action."
        remedy := some (text "A policy file with no action installs nothing polkit can be asked about.") }
  else if settings.foreign ≠ [] then
    let more := 1 < settings.foreign.length
    .error
      { message := text "the action" ++ (if more then text "s" else []) ++
          text " " ++ Updater.join (text ", ") settings.foreign ++
          text " do" ++ (if more then [] else text "es") ++
          text " not live under \"" ++ settings.scope ++ text "\"."
        remedy := some (text "polkit reads the file named after the namespace and ignores an action declared outside it. The authorisation check would then fail on an action nothing registered.") }
  else
    match repeated [] (settings.actions.map (·.id)) with
    | some id =>
        .error
          { message := text "the action \"" ++ id ++
              text "\" is declared twice."
            remedy := some (text "polkit keeps one of the two, and which one is not defined.") }
    | none => .ok ()

end PolkitSettings

structure PolkitPolicy extends PolkitSettings where
  accepted : toPolkitSettings.check = .ok ()

namespace PolkitPolicy

def escape (value : Text) : Text := XmlText.attributeText value

def line (indent name : String) (value : Text) : Text :=
  text (indent ++ "<" ++ name ++ ">") ++ value ++ text ("</" ++ name ++ ">")

/-- A value that is written unless it is blank. -/
def filled (value : Option Text) : List Text :=
  value.toList.filter fun value => !(trim value).isEmpty

def actionLines (action : PolkitAction) : List Text :=
  [[], text "  <action id=\"" ++ escape action.id ++ text "\">",
    line "    " "description" (escape action.description),
    line "    " "message" (escape action.message)] ++
  ((filled action.iconName).map fun name =>
    line "    " "icon_name" (escape name)) ++
  [text "    <defaults>",
    line "      " "allow_any" (text action.allowAny.wireName),
    line "      " "allow_inactive" (text action.allowInactive.wireName),
    line "      " "allow_active" (text action.allowActive.wireName),
    text "    </defaults>",
    text "  </action>"]

variable (policy : PolkitPolicy)

def lines : List Text :=
  [text "<?xml version=\"1.0\" encoding=\"UTF-8\"?>",
    text "<!DOCTYPE policyconfig PUBLIC \"-//freedesktop//DTD polkit Policy Configuration 1.0//EN\"",
    text "\"http://www.freedesktop.org/software/polkit/policyconfig-1.dtd\">",
    text "<policyconfig>",
    line "  " "vendor" (escape policy.vendor)] ++
  ((filled policy.vendorUrl).map fun url =>
    line "  " "vendor_url" (escape url)) ++
  policy.actions.flatMap actionLines ++ [text "</policyconfig>"]

def render : Text := policy.lines.flatMap fun line => line ++ [newline]

/-! ## Elements -/

def value (gap name : String) (content : Text) : List Segment :=
  element (text gap) (text name) content

section

variable (write : Text → Text)

def action (action : PolkitAction) : List Segment :=
  let gap := "\n    "
  let inner := "\n      "
  holding (text "\n\n  ") (text "action")
    [⟨text " ", text "id", write action.id⟩]
    (value gap "description" (write action.description) ++
      value gap "message" (write action.message) ++
      ((filled action.iconName).flatMap fun name =>
        value gap "icon_name" (write name)) ++
      holding (text gap) (text "defaults") []
        (value inner "allow_any" (text action.allowAny.wireName) ++
          value inner "allow_inactive" (text action.allowInactive.wireName) ++
          value inner "allow_active" (text action.allowActive.wireName))
        (text gap))
    (text "\n  ")

def header : List Segment :=
  [⟨[], .declaration (text "?xml version=\"1.0\" encoding=\"UTF-8\"?")⟩,
    ⟨text "\n", .declaration (text "!DOCTYPE policyconfig PUBLIC \"-//freedesktop//DTD polkit Policy Configuration 1.0//EN\"\n\"http://www.freedesktop.org/software/polkit/policyconfig-1.dtd\"")⟩]

def body : List Segment :=
  value "\n  " "vendor" (write policy.vendor) ++
    ((filled policy.vendorUrl).flatMap fun url =>
      value "\n  " "vendor_url" (write url)) ++
    policy.actions.flatMap (action write)

def document : List Segment :=
  header ++ holding (text "\n") (text "policyconfig") []
    (policy.body write) (text "\n")

end

/-! ## Lines -/

/-- A line, with its end in front of it. -/
theorem newline_line (indent name : String) (content : Text) :
    newline :: line indent name content =
      print (value ("\n" ++ indent) name content) := by
  have hline (rest : Text) : newline :: rest = text "\n" ++ rest := rfl
  rw [value, print_element, line, hline]
  simp only [List.append_assoc, text_join, String.append_assoc]

theorem flatMap_line_newline (first : Text) (rest : List Text) :
    ((first :: rest).flatMap fun line => line ++ [newline]) =
      first ++ (rest.flatMap (newline :: ·) ++ [newline]) := by
  induction rest generalizing first with
  | nil => simp
  | cons next rest ih =>
      rw [List.flatMap_cons, ih]
      simp

theorem flatMap_actionLines (action : PolkitAction) :
    (actionLines action).flatMap (newline :: ·) =
      print (PolkitPolicy.action escape action) := by
  have hline (rest : Text) : newline :: rest = text "\n" ++ rest := rfl
  have hicon : (((filled action.iconName).map fun name =>
      line "    " "icon_name" (escape name)).flatMap (newline :: ·)) =
        (filled action.iconName).flatMap fun name =>
          print (value "\n    " "icon_name" (escape name)) := by
    simp only [List.flatMap_map, newline_line, String.reduceAppend]
  unfold actionLines PolkitPolicy.action
  simp only [List.flatMap_append, hicon, List.flatMap_cons,
    List.flatMap_nil, newline_line, String.reduceAppend, print_holding,
    print_append, print_flatMap, print_attribute,
    List.append_assoc, List.append_nil, List.nil_append, List.cons_append]
  simp only [hline, text_join, text_join_last, String.reduceAppend]

theorem render_eq :
    policy.render = print (policy.document escape) ++ text "\n" := by
  have hline (rest : Text) : newline :: rest = text "\n" ++ rest := rfl
  have hurl : (((filled policy.vendorUrl).map fun url =>
      line "  " "vendor_url" (escape url)).flatMap (newline :: ·)) =
        (filled policy.vendorUrl).flatMap fun url =>
          print (value "\n  " "vendor_url" (escape url)) := by
    simp only [List.flatMap_map, newline_line, String.reduceAppend]
  have hactions : (policy.actions.flatMap actionLines).flatMap
      (newline :: ·) =
        policy.actions.flatMap fun action =>
          print (PolkitPolicy.action escape action) := by
    rw [List.flatMap_assoc]
    simp only [flatMap_actionLines]
  unfold render lines document body header
  simp only [List.cons_append, flatMap_line_newline]
  simp only [List.flatMap_append, hurl, hactions, List.flatMap_cons,
    List.flatMap_nil, newline_line, String.reduceAppend, print_part,
    print_append, print_flatMap, print_declaration, print_cons,
    List.append_assoc, List.append_nil, List.nil_append]
  simp only [hline, List.append_nil, text_join, text_join_last,
    String.reduceAppend]

/-! ## What is read -/

/-- The texts of an action that a document can hold. -/
structure CarriesAction (action : PolkitAction) : Prop where
  id : Place.quoted.Carries action.id
  description : Place.content.Carries action.description
  message : Place.content.Carries action.message
  iconName : ∀ name ∈ filled action.iconName, Place.content.Carries name

structure Carries : Prop where
  vendor : Place.content.Carries policy.vendor
  vendorUrl : ∀ url ∈ filled policy.vendorUrl, Place.content.Carries url
  actions : ∀ action ∈ policy.actions, CarriesAction action

theorem escape_marks (content : Text) :
    lessThan ∉ escape content ∧ quote ∉ escape content := by
  rw [escape, XmlText.attributeText_eq]
  constructor
  · exact Entities.mark_not_mem_write (by decide) content
  · exact Entities.quote_not_mem_write (by decide) content

theorem part_value {gap name : String} {content : Text}
    (hgap : lessThan ∉ text gap) (hname : isName (text name) = true)
    (hcontent : lessThan ∉ content) : Part (value gap name content) :=
  part_element hgap hname hcontent

theorem part_action (action : PolkitAction) :
    Part (PolkitPolicy.action escape action) := by
  have hescape (content : Text) := (escape_marks content).1
  have hname (authorization : PolkitAuthorization) :
      lessThan ∉ text authorization.wireName := by
    cases authorization <;> decide
  have hdefaults : (WrittenTag.starts (text "defaults") [] [] false).Well :=
    ⟨by decide, by simp, by simp, by simp⟩
  have hallowed :=
    (((part_value (by decide) (by decide) (hname action.allowAny) :
        Part (value "\n      " "allow_any" _)).append
      (part_value (by decide) (by decide) (hname action.allowInactive) :
        Part (value "\n      " "allow_inactive" _))).append
      (part_value (by decide) (by decide) (hname action.allowActive) :
        Part (value "\n      " "allow_active" _))).holding
      (by decide : lessThan ∉ text "\n    ")
      (by decide : lessThan ∉ text "\n    ") hdefaults
  apply Part.holding
  · apply Part.append
    · apply Part.append
      · apply Part.append
        · exact part_value (by decide) (by decide) (hescape _)
        · exact part_value (by decide) (by decide) (hescape _)
      · apply part_flatMap
        intro name _
        exact part_value (by decide) (by decide) (hescape name)
    · exact hallowed
  · decide
  · decide
  · refine ⟨by decide, ?_, by simp, by simp⟩
    have hgap : text " " ≠ [] := by decide
    have hwhite : ∀ unit ∈ text " ", isWhite unit = true := by decide
    have hnamed : isName (text "id") = true := by decide
    have hid : WrittenAttribute.Well
        ⟨text " ", text "id", escape action.id⟩ := ⟨hgap, hwhite, hnamed⟩
    simpa using hid

theorem part_body : Part (policy.body escape) := by
  have hescape (content : Text) := (escape_marks content).1
  apply Part.append
  · apply Part.append
    · exact part_value (by decide) (by decide) (hescape _)
    · apply part_flatMap
      intro url _
      exact part_value (by decide) (by decide) (hescape url)
  · apply part_flatMap
    intro action _
    exact part_action action

@[simp] theorem length_value (gap name : String) (content : Text) :
    (value gap name content).length = 2 :=
  length_element _ _ _

/-- A value is read where it is carried. -/
theorem reads_value_iff {gap : String}
    (hgap : readValue .content (text gap) = some (text gap)) (name : String)
    (content : Text) :
    Reads (value gap name (escape content)) (value gap name content) ↔
      Place.content.Carries content := by
  rw [value, value, reads_element hgap, escape,
    XmlText.readValue_attributeText_iff]

theorem reads_values_iff {gap : String}
    (hgap : readValue .content (text gap) = some (text gap)) (name : String)
    (contents : List Text) :
    Reads (contents.flatMap fun content => value gap name (escape content))
        (contents.flatMap fun content => value gap name content) ↔
      ∀ content ∈ contents, Place.content.Carries content := by
  refine (reads_flatMap fun content => by simp).trans ?_
  simp only [reads_value_iff hgap]

theorem reads_allowed {gap : String}
    (hgap : readValue .content (text gap) = some (text gap)) (name : String)
    (authorization : PolkitAuthorization) :
    Reads (value gap name (text authorization.wireName))
      (value gap name (text authorization.wireName)) := by
  rw [value, reads_element hgap]
  cases authorization <;> decide

theorem reads_action_iff (action : PolkitAction) :
    Reads (PolkitPolicy.action escape action)
        (PolkitPolicy.action id action) ↔ CarriesAction action := by
  have houter : readValue .content (text "\n\n  ") =
      some (text "\n\n  ") := by decide
  have hends : readValue .content (text "\n  ") = some (text "\n  ") := by
    decide
  have hgap : readValue .content (text "\n    ") =
      some (text "\n    ") := by decide
  have hinner : readValue .content (text "\n      ") =
      some (text "\n      ") := by decide
  have hid : [(⟨text " ", text "id", escape action.id⟩ :
      WrittenAttribute)].mapM WrittenAttribute.value =
        some ([(⟨text " ", text "id", action.id⟩ :
          WrittenAttribute)].map WrittenAttribute.meant) ↔
      Place.quoted.Carries action.id := by
    rw [← XmlText.readValue_attributeText_iff]
    simp only [List.mapM_cons, List.mapM_nil, WrittenAttribute.value,
      List.map_singleton, WrittenAttribute.meant, escape]
    cases readValue .quoted (XmlText.attributeText action.id) <;> simp
  unfold PolkitPolicy.action
  simp only [id_eq]
  rw [reads_holding houter (by simp [List.length_flatMap]), hid]
  simp only [reads_append, List.length_append, length_value,
    List.length_flatMap, reads_value_iff hgap, reads_values_iff hgap,
    reads_holding hgap, reads_allowed hinner, List.mapM_nil, List.map_nil,
    hgap, hends, pure, and_true]
  constructor
  · rintro ⟨hread, ⟨hdescription, hmessage⟩, hicon⟩
    exact ⟨hread, hdescription, hmessage, hicon⟩
  · rintro ⟨hread, hdescription, hmessage, hicon⟩
    exact ⟨hread, ⟨hdescription, hmessage⟩, hicon⟩

theorem length_action (write : Text → Text) (action : PolkitAction) :
    (PolkitPolicy.action write action).length =
      (PolkitPolicy.action id action).length := by
  simp [PolkitPolicy.action, List.length_flatMap]

theorem length_body (write : Text → Text) :
    (policy.body write).length = (policy.body id).length := by
  simp [body, List.length_flatMap, length_action write]

theorem reads_body_iff :
    Reads (policy.body escape) (policy.body id) ↔ policy.Carries := by
  have hgap : readValue .content (text "\n  ") = some (text "\n  ") := by
    decide
  unfold body
  simp only [id_eq, reads_append, List.length_append, length_value,
    List.length_flatMap, reads_value_iff hgap, reads_values_iff hgap,
    reads_flatMap (length_action escape), reads_action_iff]
  constructor
  · rintro ⟨⟨hvendor, hurl⟩, hactions⟩
    exact ⟨hvendor, hurl, hactions⟩
  · rintro ⟨hvendor, hurl, hactions⟩
    exact ⟨⟨hvendor, hurl⟩, hactions⟩

theorem header_declares :
    ∀ segment ∈ header, Declares segment ∧ segment.tag.Well := by
  rw [header, List.forall_mem_cons, List.forall_mem_singleton]
  constructor
  · constructor
    · exact ⟨⟨_, rfl⟩, by decide⟩
    · simp only [WrittenTag.Well, text, String.reduceToList]
      decide
  · constructor
    · exact ⟨⟨_, rfl⟩, by decide⟩
    · simp only [WrittenTag.Well, text, String.reduceToList]
      decide +kernel

/-- Only identifiers are attributes, and they are escaped. -/
theorem quote_not_mem_attributes :
    ∀ entry ∈ attributesOf (policy.document escape), quote ∉ entry.raw := by
  have hescape (content : Text) := (escape_marks content).2
  have hnone (gap name : String) (content : Text) :
      attributesOf (value gap name content) = [] := by
    simp [value, element]
  intro entry hentry
  simp only [document, body, header, PolkitPolicy.action,
    attributesOf_append, attributesOf_cons, attributesOf_nil,
    attributesOf_holding, attributesOf_flatMap, hnone,
    WrittenTag.attributes, List.append_nil, List.nil_append] at hentry
  rcases List.mem_append.mp hentry with hurl | haction
  · simp at hurl
  · rcases List.mem_flatMap.mp haction with ⟨action, -, hmem⟩
    rcases List.mem_append.mp hmem with hid | hicon
    · rw [List.mem_singleton.mp hid]
      exact hescape action.id
    · simp at hicon

/-- A processor reads the policy as it was meant. -/
def Survives : Prop :=
  read policy.render = some ((policy.document id).map Segment.meant)

/-- The policy is read as it was meant exactly where its texts are. -/
theorem policy_survives_iff : policy.Survives ↔ policy.Carries := by
  have hread : read (print (policy.document escape) ++ text "\n") =
      values (policy.document escape) := by
    apply read_document header_declares (by decide) (part_body policy)
    · exact ⟨by decide, by simp, by simp, by simp⟩
    · decide
    · exact quote_not_mem_attributes policy
    · decide
  have hnone : readValue .content [] = some [] := rfl
  have hline : readValue .content (text "\n") = some (text "\n") := by
    decide
  have hreads : Reads (policy.document escape) (policy.document id) ↔
      policy.Carries := by
    unfold document header
    simp only [List.cons_append, List.nil_append, reads_declaration hnone,
      reads_declaration hline]
    rw [reads_holding hline (length_body policy escape), reads_body_iff]
    simp [hline]
  rw [Survives, render_eq, hread]
  exact hreads

end PolkitPolicy

end Dovetail.Bundler
