/-
The names of a document that was read.

A name reaches a document from a start tag, and the scan takes a name only as a run of name
characters.  From there on nobody changes it: the reader carries it from the tag being read to the
open element, and from there into the content (`Reader.Named`).  So in a document that was read
every element has a name of name characters (`isNameChar_of_read`), and a path can be taken apart
where its slashes and brackets stand (`plainNames_of_read`).  What a path says in a document of
plain names it says in every document that was read (`path_and_uris_iff_of_read`).
-/
import UrlReservations.Proofs.Places
import UrlReservations.Xml.Reader

namespace UrlReservations.Xml

/-- A text that consists of name characters. -/
def ConsistsOfNameChars (name : String) : Prop := ∀ c ∈ name.toList, isNameChar c = true

theorem exists_of_bind_eq_ok {ε α β : Type} {x : Except ε α} {f : α → Except ε β} {b : β}
    (h : x >>= f = .ok b) : ∃ a, x = .ok a ∧ f a = .ok b := by
  cases x with
  | error e => cases h
  | ok a => exact ⟨a, rfl, h⟩

/-! ### Tokens -/

namespace Token

/-- If a token begins an element, the name of the element consists of name characters. -/
def Named : Token → Prop
  | .tagStart qname _ => ConsistsOfNameChars qname.name
  | _ => True

variable {cursor after : Cursor} {token : Token}

theorem named_of_readComment (h : readComment cursor = .ok (token, after)) : token.Named := by
  obtain ⟨⟨run, rest⟩, -, h⟩ := exists_of_bind_eq_ok h
  dsimp only at h
  split at h
  · cases h
  · cases h
    trivial

theorem named_of_readInstruction (h : readInstruction cursor = .ok (token, after)) :
    token.Named := by
  unfold readInstruction at h
  dsimp only at h
  split at h
  · cases h
  · split at h
    · cases h
    · obtain ⟨⟨run, rest⟩, -, h⟩ := exists_of_bind_eq_ok h
      cases h
      trivial

theorem named_of_readCdata (h : readCdata cursor = .ok (token, after)) : token.Named := by
  obtain ⟨⟨run, rest⟩, -, h⟩ := exists_of_bind_eq_ok h
  cases h
  trivial

theorem named_of_readText (h : readText cursor = .ok (token, after)) : token.Named := by
  obtain ⟨⟨run, rest⟩, -, h⟩ := exists_of_bind_eq_ok h
  dsimp only at h
  split at h
  · cases h
  · cases h
    trivial

theorem named_of_readAttribute (h : readAttribute cursor = .ok (token, after)) : token.Named := by
  obtain ⟨⟨qname, afterName⟩, -, h⟩ := exists_of_bind_eq_ok h
  obtain ⟨afterSign, -, h⟩ := exists_of_bind_eq_ok h
  obtain ⟨⟨quote, value⟩, -, h⟩ := exists_of_bind_eq_ok h
  dsimp only at h
  split at h
  · cases h
  · obtain ⟨⟨run, afterRun⟩, -, h⟩ := exists_of_bind_eq_ok h
    obtain ⟨rest, -, h⟩ := exists_of_bind_eq_ok h
    cases h
    trivial

theorem named_of_readTagStart (h : readTagStart cursor = .ok (token, after)) : token.Named := by
  obtain ⟨⟨qname, afterName⟩, hname, h⟩ := exists_of_bind_eq_ok h
  cases h
  exact isNameChar_of_readQName hname

theorem named_of_readEndTag (h : readEndTag cursor = .ok (token, after)) : token.Named := by
  obtain ⟨⟨qname, afterName⟩, -, h⟩ := exists_of_bind_eq_ok h
  obtain ⟨rest, -, h⟩ := exists_of_bind_eq_ok h
  cases h
  trivial

theorem named_of_next {mode mode' : Mode}
    (h : next mode cursor = .ok (some (token, mode', after))) : token.Named := by
  -- One case for each reader a mode may call; only start tags have a name to ask for.
  cases mode with
  | outside rooted =>
    simp only [next, nextOutside] at h
    split at h
    · exact named_of_readComment (eq_ok_of_andThen h)
    · split at h
      · exact named_of_readInstruction (eq_ok_of_andThen h)
      · split at h
        · cases h
        · split at h
          · exact named_of_readTagStart (eq_ok_of_andThen h)
          · split at h <;> cases h
  | inTag depth =>
    simp only [next, nextInTag] at h
    split at h
    · cases h
    · split at h
      · cases h
      · obtain ⟨rest, -, h⟩ := exists_of_bind_eq_ok h
        cases h
        trivial
      · cases h
        trivial
      · split at h
        · exact named_of_readAttribute (eq_ok_of_andThen h)
        · cases h
  | inContent depth =>
    simp only [next, nextInContent] at h
    split at h
    · cases h
    · split at h
      · exact named_of_readText (eq_ok_of_andThen h)
      · split at h
        · exact named_of_readComment (eq_ok_of_andThen h)
        · split at h
          · exact named_of_readCdata (eq_ok_of_andThen h)
          · split at h
            · exact named_of_readInstruction (eq_ok_of_andThen h)
            · split at h
              · exact named_of_readEndTag (eq_ok_of_andThen h)
              · split at h
                · cases h
                · exact named_of_readTagStart (eq_ok_of_andThen h)

theorem named_of_mem_scanFrom {fuel : Nat} {mode : Mode} {cursor : Cursor} {token : Token}
    (h : token ∈ (scanFrom fuel mode cursor).tokens) : token.Named := by
  induction fuel generalizing mode cursor with
  | zero => simp [scanFrom] at h
  | succ fuel ih =>
    rw [scanFrom] at h
    split at h
    · simp at h
    · simp at h
    · rename_i first mode' after hnext
      rcases List.mem_cons.mp h with rfl | h
      · exact named_of_next hnext
      · exact ih h

/-- Every element that a token of a text begins has a name of name characters. -/
theorem named_of_mem_scan {text : List Char} {token : Token} (h : token ∈ (scan text).tokens) :
    token.Named := by
  simp only [scan] at h
  split at h
  · simp at h
  · exact named_of_mem_scanFrom h

end Token

/-! ### Names in content -/

mutual

/-- The names of the elements in a node. -/
def Node.names : Node → List String
  | .element tag content => tag.name :: namesIn content
  | .text _ => []
  | .remark _ => []

/-- The names of the elements in some content. -/
def namesIn : List Node → List String
  | [] => []
  | node :: rest => node.names ++ namesIn rest

end

theorem mem_namesIn {name : String} {nodes : List Node} :
    name ∈ namesIn nodes ↔ ∃ node ∈ nodes, name ∈ node.names := by
  induction nodes with
  | nil => simp [namesIn]
  | cons node rest ih => simp [namesIn, ih]

theorem namesIn_placesIn (nodes : List Node) : ∀ (above : List Step) (before : List Element),
    (placesIn above before nodes).map (·.element.name) = namesIn nodes := by
  induction nodes using Node.forestInduction with
  | nil =>
    intro above before
    rfl
  | element tag content rest ihContent ihRest =>
    intro above before
    rw [placesIn_element, List.map_cons, List.map_append, ihContent, ihRest, namesIn, Node.names]
    rfl
  | text data rest ih =>
    intro above before
    rw [placesIn_text, ih, namesIn, Node.names, List.nil_append]
  | remark r rest ih =>
    intro above before
    rw [placesIn_remark, ih, namesIn, Node.names, List.nil_append]

/-- All elements in a node have names of name characters. -/
def Node.Named (node : Node) : Prop := ∀ name ∈ node.names, ConsistsOfNameChars name

theorem Node.named_element {tag : Tag} {content : List Node} :
    (Node.element tag content).Named ↔
      ConsistsOfNameChars tag.name ∧ ∀ node ∈ content, node.Named := by
  rw [Node.Named, Node.names, List.forall_mem_cons]
  refine and_congr_right fun _ => ⟨?_, ?_⟩
  · intro h node hnode name hname
    exact h name (mem_namesIn.mpr ⟨node, hnode, hname⟩)
  · intro h name hname
    obtain ⟨node, hnode, hname⟩ := mem_namesIn.mp hname
    exact h node hnode name hname

theorem Node.named_text (data : String) : (Node.text data).Named := by
  simp [Node.Named, Node.names]

theorem Node.named_remark (r : Remark) : (Node.remark r).Named := by
  simp [Node.Named, Node.names]

/-! ### The reader -/

namespace Reader

/--
Every name a reader holds consists of name characters: in the tag
being read, around the content, and in it.
-/
structure Named (reader : Reader) : Prop where
  tag : ∀ raw ∈ reader.tag?, ConsistsOfNameChars raw.qname.name
  opened : ∀ element ∈ reader.opened,
    ConsistsOfNameChars element.tag.name ∧ ∀ node ∈ element.before, node.Named
  content : ∀ node ∈ reader.content, node.Named

theorem named_start : start.Named := by
  refine ⟨?_, ?_, ?_⟩ <;> simp [start]

theorem Named.add {reader : Reader} (h : reader.Named) {node : Node} (hnode : node.Named) :
    (reader.add node).Named :=
  ⟨h.tag, h.opened, List.forall_mem_cons.mpr ⟨hnode, h.content⟩⟩

theorem qname_of_takeAttribute {raw raw' : RawTag} {qname : QName} {pos : Position}
    {written : Cursor} (h : takeAttribute raw qname pos written = .ok raw') :
    raw'.qname = raw.qname := by
  obtain ⟨value, -, h⟩ := exists_of_bind_eq_ok h
  split at h
  · obtain ⟨declared, -, h⟩ := exists_of_bind_eq_ok h
    cases h
    rfl
  · cases h
    rfl

theorem name_of_resolveTag {scope : Scope} {raw : RawTag} {tag : Tag}
    (h : resolveTag scope raw = .ok tag) : tag.name = raw.qname.name := by
  obtain ⟨attributes, -, h⟩ := exists_of_bind_eq_ok h
  obtain ⟨uri?, -, h⟩ := exists_of_bind_eq_ok h
  cases h
  rfl

theorem Named.endTag {reader reader' : Reader} (h : reader.Named) {raw : RawTag} {empty : Bool}
    (hraw : ConsistsOfNameChars raw.qname.name) (hend : reader.endTag raw empty = .ok reader') :
    reader'.Named := by
  obtain ⟨tag, htag, hend⟩ := exists_of_bind_eq_ok hend
  have hname : ConsistsOfNameChars tag.name := by rwa [name_of_resolveTag htag]
  split at hend
  · cases hend
    refine ⟨by simp, h.opened, List.forall_mem_cons.mpr ⟨?_, h.content⟩⟩
    exact Node.named_element.mpr ⟨hname, by simp⟩
  · cases hend
    exact ⟨by simp, List.forall_mem_cons.mpr ⟨⟨hname, h.content⟩, h.opened⟩, by simp⟩

theorem Named.closeElement {reader reader' : Reader} (h : reader.Named) {qname : QName}
    {pos : Position} (hclose : reader.closeElement qname pos = .ok reader') : reader'.Named := by
  unfold Reader.closeElement at hclose
  split at hclose
  · cases hclose
    exact h
  · rename_i innermost outer hopened
    split at hclose
    · cases hclose
      obtain ⟨⟨hname, hbefore⟩, houter⟩ := List.forall_mem_cons.mp (hopened ▸ h.opened)
      refine ⟨by simp, houter, List.forall_mem_cons.mpr ⟨?_, hbefore⟩⟩
      exact Node.named_element.mpr ⟨hname, fun node hnode =>
        h.content node (List.mem_reverse.mp hnode)⟩
    · cases hclose

/-- Taking a token keeps what holds of the names. -/
theorem Named.take {reader reader' : Reader} (h : reader.Named) {token : Token}
    (htoken : token.Named) (htake : reader.take token = .ok reader') : reader'.Named := by
  -- A start tag brings a name in, its end moves it to the open elements or into the content,
  -- and an end tag moves it from the one to the other; all other tokens leave names alone.
  cases token with
  | tagStart qname pos =>
    rw [Reader.take] at htake
    split at htake
    · cases htake
    · cases htake
      refine ⟨?_, h.opened, h.content⟩
      rintro _ ⟨⟩
      exact htoken
  | attr qname pos written =>
    rw [Reader.take] at htake
    split at htake
    · cases htake
      exact h
    · rename_i raw hraw
      obtain ⟨raw', htag, htake⟩ := exists_of_bind_eq_ok htake
      cases htake
      refine ⟨?_, h.opened, h.content⟩
      rintro _ ⟨⟩
      rw [qname_of_takeAttribute htag]
      exact h.tag raw hraw
  | tagEnd empty =>
    rw [Reader.take] at htake
    split at htake
    · cases htake
      exact h
    · rename_i raw hraw
      exact h.endTag (h.tag raw hraw) htake
  | endTag qname pos => exact h.closeElement htake
  | text run =>
    obtain ⟨text, -, htake⟩ := exists_of_bind_eq_ok htake
    cases htake
    exact h.add (Node.named_text text)
  | cdata text =>
    cases htake
    exact h.add (Node.named_text text)
  | comment text =>
    cases htake
    exact h.add (Node.named_remark _)
  | instruction target text =>
    cases htake
    exact h.add (Node.named_remark _)

theorem Named.foldlM {tokens : List Token} {reader reader' : Reader} (h : reader.Named)
    (htokens : ∀ token ∈ tokens, token.Named)
    (hfold : tokens.foldlM Reader.take reader = .ok reader') : reader'.Named := by
  induction tokens generalizing reader with
  | nil =>
    cases hfold
    exact h
  | cons token rest ih =>
    rw [List.foldlM_cons] at hfold
    obtain ⟨next, hnext, hfold⟩ := exists_of_bind_eq_ok hfold
    obtain ⟨htoken, hrest⟩ := List.forall_mem_cons.mp htokens
    exact ih (h.take htoken hnext) hrest hfold

end Reader

/-! ### Documents -/

namespace Document

theorem root_mem_of_ofNodes? {nodes : List Node} {doc : Document} (h : ofNodes? nodes = some doc) :
    .element doc.root.tag doc.root.content ∈ nodes := by
  induction nodes generalizing doc with
  | nil => cases h
  | cons node rest ih =>
    rw [ofNodes?] at h
    cases node with
    | element tag content =>
      cases h
      exact List.mem_cons_self
    | text data =>
      obtain ⟨inner, hinner, rfl⟩ := Option.map_eq_some_iff.mp h
      have hmem := ih hinner
      exact List.mem_cons_of_mem _ hmem
    | remark r =>
      obtain ⟨inner, hinner, rfl⟩ := Option.map_eq_some_iff.mp h
      have hmem := ih hinner
      exact List.mem_cons_of_mem _ hmem

/-- **The names of all elements of a document that was read consist of name characters.** -/
theorem isNameChar_of_read {text : String} {doc : Document} (h : Document.read text = .ok doc) :
    ∀ place ∈ doc.places, ∀ c ∈ place.element.name.toList, isNameChar c = true := by
  obtain ⟨reader, hfold, h⟩ := exists_of_bind_eq_ok h
  have hreader := Reader.named_start.foldlM (fun token => Token.named_of_mem_scan) hfold
  have hroot : Node.element doc.root.tag doc.root.content ∈ reader.content := by
    split at h
    · cases h
    · unfold Reader.finish at h
      split at h
      · cases h
      · split at h
        · cases h
        · rename_i hnodes
          cases h
          exact List.mem_reverse.mp (root_mem_of_ofNodes? hnodes)
  intro place hplace
  have hname := List.mem_map_of_mem (f := (·.element.name)) hplace
  rw [places_eq, namesIn_placesIn, namesIn, namesIn, List.append_nil] at hname
  exact hreader.content _ hroot _ hname

/-- So they are plain. -/
theorem plainNames_of_read {text : String} {doc : Document} (h : Document.read text = .ok doc) :
    doc.PlainNames := by
  intro place hplace
  refine ⟨?_, ?_⟩
  · intro hslash
    exact absurd (isNameChar_of_read h place hplace _ hslash) (by decide)
  · intro hbracket
    exact absurd (isNameChar_of_read h place hplace _ hbracket) (by decide)

/-- In a document that was read, a path and the namespaces along it belong to one element. -/
theorem path_and_uris_iff_of_read {text : String} {doc : Document}
    (h : Document.read text = .ok doc) {i j : Nat} {place other : Place}
    (hplace : doc.places[i]? = some place) (hother : doc.places[j]? = some other) :
    place.path = other.path ∧ place.uris = other.uris ↔ i = j := by
  have hsteps := (plainNames_of_read h).of_mem_steps (List.mem_of_getElem? hplace)
  have hsteps' := (plainNames_of_read h).of_mem_steps (List.mem_of_getElem? hother)
  rw [← Place.labels_eq_iff hsteps hsteps', labels_eq_iff hplace hother]

end Document

end UrlReservations.Xml
