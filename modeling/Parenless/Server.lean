import Parenless.Index
import Parenless.Text.Lines
/-!
The editor service.

The service keeps the open documents by name (their URI), each with its text and its
index. Opening or changing a document indexes its new text and publishes the
diagnostics; a change with several contents keeps the last, and a change with none
keeps the text it had (or the empty text). Closing forgets the document and
publishes no diagnostics. Notifications are handled in turn, and one whose handler
fails stops the run. Hover describes the word under the cursor, completion lists
the builtins and then the document's declarations, and the symbols of a document are
its declarations, each with the range of its name.

The word under a cursor is the run of non-blank characters of the cursor's line that
contains the cursor or ends just before it. A cursor past the end of its line (line
ending included) is refused.
-/

namespace Parenless

/-- Why a request to the service cannot be answered. -/
inductive Refusal where
  /-- A cursor past the end of its line. -/
  | pastLineEnd
  /-- A failure outside the language's reports while indexing. -/
  | failed (f : Failure)
  deriving Repr, DecidableEq, Inhabited

/-- The word under a cursor: `none` past the last line or on no word. -/
def wordAt (text : String) (line col : Nat) : Except Refusal (Option String) :=
  match (Text.linesKeepingEnds text)[line]? with
  | none => .ok none
  | some l =>
    let cs := l.toList
    if cs.length < col then .error .pastLineEnd
    else
      let before := ((cs.take col).reverse.takeWhile fun c => !Text.isBlank c).reverse
      let after := (cs.drop col).takeWhile fun c => !Text.isBlank c
      match before ++ after with
      | [] => .ok none
      | w => .ok (some (String.ofList w))

/-- An open document: its text and its index. -/
structure Document where
  text : String
  index : Index
  deriving Inhabited

/-- The documents the service holds, by URI, and the room in frames that a
declaration body has when a document is indexed. -/
structure Server where
  documents : List (String × Document) := []
  room : Nat := Stack.standard.room
  deriving Inhabited

/-- Published diagnostics: the document's URI and its notes. -/
structure Published where
  uri : String
  notes : List Note
  deriving Inhabited

/-- A completion item: label and detail. -/
structure Completion where
  label : String
  detail : String
  deriving Inhabited

/-- A notification an editor sends about a document. -/
inductive Notification where
  /-- A document was opened, with its text when the editor sent one. -/
  | opened (uri : String) (text : Option String)
  /-- A document changed; each change gives the whole text, and the last one counts. -/
  | changed (uri : String) (texts : List String)
  /-- A document was closed. -/
  | closed (uri : String)
  deriving Repr, DecidableEq, Inhabited

/-- The document a notification is about. -/
def Notification.uri : Notification → String
  | .opened uri _ | .changed uri _ | .closed uri => uri

namespace Server

/-- The document held under a URI. -/
def find? (s : Server) (uri : String) : Option Document :=
  (s.documents.find? (·.1 == uri)).map Prod.snd

/-- Holds a document under a URI, in place of the one it had. -/
def put (s : Server) (uri : String) (d : Document) : Server :=
  if s.documents.any (·.1 == uri) then
    { s with documents := s.documents.map fun e => if e.1 == uri then (uri, d) else e }
  else { s with documents := s.documents ++ [(uri, d)] }

/-- Forgets the document under a URI. -/
def drop (s : Server) (uri : String) : Server :=
  { s with documents := s.documents.filter (·.1 != uri) }

/-- Indexes a text and holds it under a URI; publishes its notes. -/
def update (s : Server) (uri text : String) : Except Refusal (Server × Published) :=
  match Index.build s.room text with
  | .ok idx => .ok (s.put uri ⟨text, idx⟩, ⟨uri, idx.notes⟩)
  | .error f => .error (.failed f)

/-- Opens a document. -/
def openDocument (s : Server) (uri text : String) : Except Refusal (Server × Published) :=
  s.update uri text

/-- Changes a document to the last of the given texts, or keeps its text. -/
def changeDocument (s : Server) (uri : String) (texts : List String) : Except Refusal (Server × Published) :=
  let text := match texts.getLast? with
    | some t => t
    | none => ((s.find? uri).map (·.text)).getD ""
  s.update uri text

/-- Closes a document; nothing is published for it any more. -/
def closeDocument (s : Server) (uri : String) : Server × Published :=
  (s.drop uri, ⟨uri, []⟩)

/-- Handles a notification; a document opened without a text opens empty. -/
def notify (s : Server) : Notification → Except Refusal (Server × Published)
  | .opened uri text => s.openDocument uri (text.getD "")
  | .changed uri texts => s.changeDocument uri texts
  | .closed uri => .ok (s.closeDocument uri)

/-- Handles notifications in turn, with what each published; a handler that fails
stops the run. -/
def notifyAll (s : Server) : List Notification → Except Refusal (Server × List Published)
  | [] => .ok (s, [])
  | n :: ns =>
    match s.notify n with
    | .error r => .error r
    | .ok (s', p) =>
      match s'.notifyAll ns with
      | .error r => .error r
      | .ok (s'', ps) => .ok (s'', p :: ps)

/-- What hovering at a cursor shows. -/
def hover (s : Server) (uri : String) (line col : Nat) : Except Refusal (Option String) :=
  match s.find? uri with
  | none => .ok none
  | some d =>
    match wordAt d.text line col with
    | .ok (some w) => .ok (describe w d.index)
    | .ok none => .ok none
    | .error r => .error r

/-- What completion offers: the builtins, then the document's declarations. -/
def complete (s : Server) (uri : String) : List Completion :=
  let builtins := builtinSignatures.map fun b => ⟨b.1, b.2⟩
  match s.find? uri with
  | some d => builtins ++ d.index.headers.map fun h => ⟨h.name, h.signature⟩
  | none => builtins

/-- The symbols of a document: each head with the range of its name. -/
def symbols (s : Server) (uri : String) : Option (List (Header × (Nat × Nat) × (Nat × Nat))) :=
  (s.find? uri).map fun d =>
    d.index.headers.map fun h => (h, (h.line, h.col), (h.line, h.col + h.name.length))

/-- The URIs of the open documents, sorted. -/
def uris (s : Server) : List String :=
  (s.documents.map Prod.fst).mergeSort fun a b => decide (a ≤ b)

end Server

end Parenless
