import Fulgur.Library.QuotedValues

/-! # Where the values of HTML attributes are

The states in which HTML is read, symbol by symbol: text, tags with their attributes,
comments, and the contents of elements that have no tags inside. The values asked
for are those of the `src` attributes of `img` tags, between quotes.
-/

namespace Fulgur

open QuotedValues

/-- White space in tags. -/
def isHtmlSpace (c : Char) : Bool :=
  c = ' ' || c = '\t' || c = '\n' || c = '\r' || c = '\x0C'

/-- Names are in lower case; that of an end tag begins with its slash. -/
inductive HtmlState where
  | data
  | tagOpen
  | endTagOpen
  | tagName (tag : List Char)
  | beforeAttribute (tag : List Char)
  | attributeName (tag name : List Char)
  | afterAttributeName (tag name : List Char)
  | beforeValue (tag name : List Char)
  | quotedValue (tag : List Char) (quote : Char)
  | unquotedValue (tag : List Char)
  | afterQuotedValue (tag : List Char)
  | selfClosing (tag : List Char)
  | markupDeclaration
  | markupDash
  | commentStart
  | commentStartDash
  | comment
  | commentEndDash
  | commentEnd
  | commentEndBang
  | bogusComment
  /-- In an element whose contents are text, and what was read of its end tag. -/
  | rawText (tag endTag : List Char)
deriving DecidableEq

namespace HtmlState

/-- The elements whose contents are text up to their end tag. -/
def rawTextElements : List (List Char) :=
  ["script", "style", "textarea", "title", "xmp", "iframe", "noembed", "noframes"].map String.toList

/-- After the bracket that closes a tag. -/
def afterTag (tag : List Char) : HtmlState :=
  if tag ∈ rawTextElements then .rawText tag [] else .data

/-- What may stand after the name of a tag, and after an attribute. -/
def inTag (tag : List Char) (c : Char) (other : HtmlState) : HtmlState :=
  if isHtmlSpace c then .beforeAttribute tag
  else if c = '/' then .selfClosing tag
  else if c = '>' then afterTag tag
  else other

def next : HtmlState → Char → HtmlState
  | .data, c => if c = '<' then .tagOpen else .data
  | .tagOpen, c =>
      if c.isAlpha then .tagName [c.toLower]
      else if c = '/' then .endTagOpen
      else if c = '!' then .markupDeclaration
      else if c = '?' then .bogusComment
      else if c = '<' then .tagOpen
      else .data
  | .endTagOpen, c =>
      if c.isAlpha then .tagName ['/', c.toLower]
      else if c = '>' then .data
      else .bogusComment
  | .tagName tag, c => inTag tag c (.tagName (tag ++ [c.toLower]))
  | .beforeAttribute tag, c => inTag tag c (.attributeName tag [c.toLower])
  | .attributeName tag name, c =>
      if isHtmlSpace c then .afterAttributeName tag name
      else if c = '=' then .beforeValue tag name
      else inTag tag c (.attributeName tag (name ++ [c.toLower]))
  | .afterAttributeName tag name, c =>
      if isHtmlSpace c then .afterAttributeName tag name
      else if c = '=' then .beforeValue tag name
      else inTag tag c (.attributeName tag [c.toLower])
  | .beforeValue tag name, c =>
      if isHtmlSpace c then .beforeValue tag name
      else if c = '"' ∨ c = '\'' then .quotedValue tag c
      else if c = '>' then afterTag tag
      else .unquotedValue tag
  | .quotedValue tag quote, c => if c = quote then .afterQuotedValue tag else .quotedValue tag quote
  | .unquotedValue tag, c =>
      if isHtmlSpace c then .beforeAttribute tag
      else if c = '>' then afterTag tag
      else .unquotedValue tag
  | .afterQuotedValue tag, c => inTag tag c (.attributeName tag [c.toLower])
  | .selfClosing tag, c => inTag tag c (.attributeName tag [c.toLower])
  | .markupDeclaration, c =>
      if c = '-' then .markupDash else if c = '>' then .data else .bogusComment
  | .markupDash, c =>
      if c = '-' then .commentStart else if c = '>' then .data else .bogusComment
  | .commentStart, c =>
      if c = '-' then .commentStartDash else if c = '>' then .data else .comment
  | .commentStartDash, c =>
      if c = '-' then .commentEnd else if c = '>' then .data else .comment
  | .comment, c => if c = '-' then .commentEndDash else .comment
  | .commentEndDash, c => if c = '-' then .commentEnd else .comment
  | .commentEnd, c =>
      if c = '>' then .data
      else if c = '!' then .commentEndBang
      else if c = '-' then .commentEnd
      else .comment
  | .commentEndBang, c =>
      if c = '-' then .commentEndDash else if c = '>' then .data else .comment
  | .bogusComment, c => if c = '>' then .data else .bogusComment
  | .rawText tag endTag, c =>
      let whole := '<' :: '/' :: tag
      if endTag = whole ∧ (isHtmlSpace c ∨ c = '/' ∨ c = '>') then inTag ('/' :: tag) c .data
      else if endTag ++ [c.toLower] <+: whole then
        .rawText tag (endTag ++ [c.toLower])
      else .rawText tag (if c = '<' then ['<'] else [])

def opensImgSrc : HtmlState → Char → Bool
  | .beforeValue tag name, c =>
      tag = "img".toList && name = "src".toList && (c = '"' || c = '\'')
  | _, _ => false

end HtmlState

/-- Reads the quoted `src` values of the `img` tags. -/
def imgSrcReader : Reader HtmlState Char where
  next := HtmlState.next
  opens := HtmlState.opensImgSrc

/-- The text with the quoted `src` values of its `img` tags. -/
def imgSrcPieces (html : String) : List (Piece Char) := imgSrcReader.pieces .data html.toList

def isQuote (c : Char) : Prop := c = '"' ∨ c = '\''

theorem isQuote_of_opens (s : HtmlState) (c : Char) (h : imgSrcReader.opens s c = true) :
    isQuote c := by
  cases s with
  | beforeValue tag name =>
      have h : HtmlState.opensImgSrc (.beforeValue tag name) c = true := h
      simpa [HtmlState.opensImgSrc, isQuote] using (Bool.and_eq_true_iff.mp h).2
  | _ => cases h

end Fulgur
