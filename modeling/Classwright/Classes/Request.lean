import Classwright.Classes.Naming
import Classwright.Code.ClassDecl
import Classwright.Graph.Endpoint
import Classwright.Settings.Basic
import Classwright.Swagger.Url

namespace Classwright.Classes.Request

open Schema Swagger Code Settings Template

def parameterValue (lex : Lexicon) (e : Endpoint) (parameter : String) : String :=
  (e.access parameter).foldl lex.member lex.selfReference

def partExpression (lex : Lexicon) (e : Endpoint) : UrlPart → String
  | .literal text => lex.stringLiteral text
  | .parameter name => fill lex.request.toText [("value", parameterValue lex e name)]

def pathExpression (lex : Lexicon) (e : Endpoint) : String :=
  let parts := UrlPart.ofUrl e.url
  if parts.isEmpty then lex.stringLiteral ""
  else " + ".intercalate (parts.map (partExpression lex e))

def queryNames (e : Endpoint) : List String :=
  (e.urlParameters.filter (·.location == .query)).map (·.name)

-- Appends a parameter to the query unless it is null.
def appendToQuery (lex : Lexicon) (e : Endpoint) (name : String) : Statement :=
  let value := parameterValue lex e name
  let appended := fill lex.request.toText [("value", value)]
  .block (fill lex.request.ifNotNull [("value", value)])
    [.line (lex.statement
      ("query += " ++ lex.stringLiteral ("&" ++ name ++ "=") ++ " + " ++ appended))]

def declareVariable (lex : Lexicon) (name value : String) : Statement :=
  .line (lex.statement (fill lex.request.variableDeclaration [("name", name), ("value", value)]))

def answer (lex : Lexicon) (value : String) : Statement := .line (lex.returnStatement value)

def urlBody (lex : Lexicon) (e : Endpoint) : List Statement :=
  if (queryNames e).isEmpty then [answer lex (pathExpression lex e)]
  else
    [declareVariable lex "url" (pathExpression lex e),
      declareVariable lex "query" (lex.stringLiteral "")] ++
    (queryNames e).map (appendToQuery lex e) ++
    [answer lex (fill lex.request.finishUrl [("url", "url"), ("query", "query")])]

def responseType (response : TypeRef) : TypeExpr :=
  let element := response.element
  let type :=
    if element.isEnum && !element.isNative then .native .string false else elementType element
  if response.isArray then .list type false else type

def responseName (lex : Lexicon) (response : Option TypeRef) : String :=
  match response with
  | some type => lex.stringLiteral ((responseType type).print lex)
  | none => lex.nullLiteral

def bodyValue (lex : Lexicon) (e : Endpoint) : String :=
  match e.body with
  | some body => lex.selfMember body.name
  | none => lex.nullLiteral

-- A method without parameters. With supertypes, it stands for one that they declare.
def accessor (s : ClassSettings) (name : String) (returns : TypeExpr) (body : List Statement) :
    Method :=
  { Method.make name [] returns body with
    isOverride := s.inherits.isSome || !s.implements.isEmpty }

def methods (lex : Lexicon) (s : ClassSettings) (e : Endpoint) : List Method := [
  accessor s "getUrl" (.native .string false) (urlBody lex e),
  accessor s "getMethod" (.native .string false) [answer lex (lex.stringLiteral e.method.verb)],
  accessor s "getBody" (.any true) [answer lex (bodyValue lex e)],
  accessor s "getSuccessResponseType" (.native .string true)
    [answer lex (responseName lex e.success)],
  accessor s "getErrorResponseType" (.native .string true)
    [answer lex (responseName lex e.failure)]]

def properties (e : Endpoint) : List Property := e.urlProperty.toList ++ e.body.toList

def classOf (lex : Lexicon) (s model : ClassSettings) (e : Endpoint) : ClassDecl :=
  let name := requestClassName e.name
  let fields := (properties e).map fun p => Field.make p.name (declaredType name p) none
  let named := (properties e).flatMap fun p => (declaredType name p).namedTypes
  { ClassDecl.make name s.package with
    inherits := s.inherits
    implements := s.implements
    fields := fields
    constructor := some ⟨name, fields.map (·.toParameter)⟩
    methods := methods lex s e
    : ClassDecl }.addImports (named.map (.ofClass model.package))

end Classwright.Classes.Request
