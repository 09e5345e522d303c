import HtmlMarkdown.Html.Builder.State

/-!
Elements of the SVG and MathML vocabularies. Tags and attributes are read in lower case; the ones
that have capital letters get them back, and some attributes belong to vocabularies of their own.
-/
namespace HtmlMarkdown.Html

/-- The SVG tags with capital letters. -/
def svgTags : List String :=
  ["altGlyph", "altGlyphDef", "altGlyphItem", "animateColor", "animateMotion",
    "animateTransform", "clipPath", "feBlend", "feColorMatrix", "feComponentTransfer",
    "feComposite", "feConvolveMatrix", "feDiffuseLighting", "feDisplacementMap",
    "feDistantLight", "feDropShadow", "feFlood", "feFuncA", "feFuncB", "feFuncG", "feFuncR",
    "feGaussianBlur", "feImage", "feMerge", "feMergeNode", "feMorphology", "feOffset",
    "fePointLight", "feSpecularLighting", "feSpotLight", "feTile", "feTurbulence",
    "foreignObject", "glyphRef", "linearGradient", "radialGradient", "textPath"]

/-- The SVG attributes with capital letters. -/
def svgAttributes : List String :=
  ["attributeName", "attributeType", "baseFrequency", "baseProfile", "calcMode",
    "clipPathUnits", "diffuseConstant", "edgeMode", "filterUnits", "glyphRef",
    "gradientTransform", "gradientUnits", "kernelMatrix", "kernelUnitLength", "keyPoints",
    "keySplines", "keyTimes", "lengthAdjust", "limitingConeAngle", "markerHeight",
    "markerUnits", "markerWidth", "maskContentUnits", "maskUnits", "numOctaves", "pathLength",
    "patternContentUnits", "patternTransform", "patternUnits", "pointsAtX", "pointsAtY",
    "pointsAtZ", "preserveAlpha", "preserveAspectRatio", "primitiveUnits", "refX", "refY",
    "repeatCount", "repeatDur", "requiredExtensions", "requiredFeatures", "specularConstant",
    "specularExponent", "spreadMethod", "startOffset", "stdDeviation", "stitchTiles",
    "surfaceScale", "systemLanguage", "tableValues", "targetX", "targetY", "textLength",
    "viewBox", "viewTarget", "xChannelSelector", "yChannelSelector", "zoomAndPan"]

/-- The spelling with capital letters, if the list has one. -/
def respell (spellings : List String) (name : String) : String :=
  (spellings.find? fun s => s.map Char.toLower == name).getD name

/-- An attribute in the vocabulary that its prefix names. -/
def foreignAttribute (name value : String) : Attribute :=
  match name with
  | "xlink:actuate" => ⟨"actuate", value, .xlink⟩
  | "xlink:arcrole" => ⟨"arcrole", value, .xlink⟩
  | "xlink:href" => ⟨"href", value, .xlink⟩
  | "xlink:role" => ⟨"role", value, .xlink⟩
  | "xlink:show" => ⟨"show", value, .xlink⟩
  | "xlink:title" => ⟨"title", value, .xlink⟩
  | "xlink:type" => ⟨"type", value, .xlink⟩
  | "xml:base" => ⟨"base", value, .xml⟩
  | "xml:lang" => ⟨"lang", value, .xml⟩
  | "xml:space" => ⟨"space", value, .xml⟩
  | "xmlns" => ⟨"xmlns", value, .xmlns⟩
  | "xmlns:xlink" => ⟨"xlink", value, .xmlns⟩
  | _ => ⟨name, value, .plain⟩

def attributesIn (space : Namespace) (attributes : List (String × String)) : List Attribute :=
  attributes.map fun (name, value) =>
    let name := match space with
      | .svg => respell svgAttributes name
      | .mathml => if name = "definitionurl" then "definitionURL" else name
      | .html => name
    foreignAttribute name value

namespace Builder

/-- Puts an element of another vocabulary into its place, and opens it unless its tag closes
itself. -/
def openForeign (b : Builder) (space : Namespace) (tag : Tag) : Builder :=
  let (id, b) := b.insert space tag.name (attributesIn space tag.attributes)
  if tag.selfClosing then b else b.push id

/-- An annotation that says of itself that it holds HTML. -/
def isHtmlAnnotation (b : Builder) (id : CellId) : Bool :=
  match (b.forest.cell id).data with
  | .element .mathml "annotation-xml" attributes =>
    attributes.any fun a => a.name == "encoding" &&
      ["text/html", "application/xhtml+xml"].contains (a.value.map Char.toLower)
  | _ => false

/-- True if the innermost open element is of another vocabulary. -/
def currentIsForeign (b : Builder) : Bool :=
  match b.opened with
  | [] => false
  | id :: _ => (b.forest.name? id).any fun (space, _) => space != .html

/-- True if a token is treated by the rules for other vocabularies. -/
def treatsAsForeign (b : Builder) (token : Token) : Bool :=
  let isText := match token with
    | .char _ => true
    | _ => false
  let startName? := match token with
    | .startTag name _ _ => some name
    | _ => none
  if !b.currentIsForeign || token == .endOfSource then false
  else if b.isTextIntegration b.current &&
    (isText || startName?.any fun name => !(["mglyph", "malignmark"].contains name)) then false
  else if b.isHtmlIntegration b.current && (isText || startName?.isSome) then false
  else if b.forest.name? b.current == some (.mathml, "annotation-xml") then
    if startName? == some "svg" then false
    else if isText || startName?.isSome then !b.isHtmlAnnotation b.current
    else true
  else true

end Builder
end HtmlMarkdown.Html
