import TemplateScopes.OrderedMap

/-!
# Standard lookup tables

The names that every template can use, the accessors that page and email
templates add, the types that methods imply, the methods of lists, the
rules that guess a type from a name, and the classes that hold data.
-/

namespace TemplateScopes.Tables

/-- The entries of a table as texts. -/
def entries (written : List (String × String)) : List (Text × Text) :=
  written.map fun entry => (entry.1, entry.2)

/-- Accessors that every scope has and that are never data. -/
def globalAccessors : List Text := [
  "Up", "Top", "Me", "AbsoluteBaseURL", "BaseURL", "BaseHref", "CurrentMember",
  "CurrentUser", "CurrentPage", "SiteConfig", "Now", "i18nLocale", "i18nScriptDirection",
  "ThemeDir", "RequirementsInclude"]

/-- Accessors of page templates: the page hierarchy, navigation and the
fields of a page. -/
def siteTreeAccessors : List Text := [
  "Menu", "Children", "AllChildren", "Parent", "Level", "Breadcrumbs", "Link",
  "AbsoluteLink", "RelativeLink", "LinkingMode", "LinkOrCurrent", "LinkOrSection",
  "InSection", "IsSection", "IsCurrent", "Title", "MenuTitle", "MetaTitle",
  "MetaDescription", "MetaTags", "Content", "URLSegment", "ShowInMenus", "ShowInSearch",
  "Sort", "ClassName", "ID", "ParentID", "Created", "LastEdited", "Form"]

/-- Accessors of email templates: the fields of the message header. -/
def emailAccessors : List Text := [
  "To", "Cc", "Bcc", "From", "Subject", "Body", "BaseURL", "IsEmail"]

/-- Methods, in lower case, with the type of field that has them. -/
def fieldMethods : List (Text × Text) := entries [
  ("nice", "Date"), ("ago", "Date"), ("format", "Date"), ("dayofmonth", "Date"),
  ("dayofweek", "Date"), ("month", "Date"), ("shortmonth", "Date"), ("year", "Date"),
  ("long", "Date"), ("full", "Date"), ("rangestring", "Date"), ("inpast", "Date"),
  ("infuture", "Date"), ("istoday", "Date"), ("time", "Time"), ("time12", "Time"),
  ("time24", "Time"), ("limitcharacters", "Text"), ("limitwordcount", "Text"),
  ("limitsentences", "Text"), ("firstsentence", "Text"), ("firstparagraph", "Text"),
  ("contextsummary", "Text"), ("bigsummary", "Text"), ("summary", "HTMLText"),
  ("lowercase", "Varchar"), ("uppercase", "Varchar"), ("xml", "Varchar"),
  ("js", "Varchar"), ("att", "Varchar"), ("raw", "Varchar"), ("whole", "Currency"),
  ("formatted", "Decimal"), ("nullifempty", "Int"), ("setwidth", "Image"),
  ("setheight", "Image"), ("setsize", "Image"), ("setratiosize", "Image"),
  ("croppedimage", "Image"), ("paddedimage", "Image"), ("fill", "Image"),
  ("fit", "Image"), ("pad", "Image"), ("scalewidth", "Image"), ("scaleheight", "Image"),
  ("url", "File"), ("absoluteurl", "File"), ("filename", "File"), ("extension", "File"),
  ("size", "File"), ("filetype", "File")]

/-- Methods, in lower case, that any list has inside a loop. -/
def collectionMethods : List Text := [
  "first", "last", "middle", "firstlast", "pos", "fromend", "totalitems", "count",
  "exists", "even", "odd", "evenodd", "modulus", "multipleof", "iteratorpos", "limit",
  "sort", "filter", "filterany", "exclude", "find", "column", "map", "reverse", "toarray",
  "groupedby"]

/-- Patterns in names with the type that they suggest, the first one
that fits counting. -/
def inferenceRules : List (Text × Text) := entries [
  ("Date", "Date"), ("Time", "Time"), ("Image", "Image"), ("Photo", "Image"),
  ("Picture", "Image"), ("Logo", "Image"), ("File", "File"), ("Document", "File"),
  ("Content", "HTMLText"), ("Description", "HTMLText"), ("Body", "HTMLText"),
  ("Price", "Currency"), ("Cost", "Currency"), ("Amount", "Currency"), ("Count", "Int"),
  ("Number", "Int"), ("Quantity", "Int"), ("Email", "Varchar"), ("Phone", "Varchar"),
  ("URL", "Varchar"), ("Link", "Varchar")]

/-- The type of a name that no rule fits. -/
def defaultType : Text := "Text"

/-- The type of a name that is only a condition. -/
def booleanType : Text := "Boolean"

/-- The type of a relation to an unknown class. -/
def relationType : Text := "has_one"

/-- Classes that hold data. -/
def knownTypes : List Text := [
  "File", "Image", "Folder", "Member", "Group", "SiteTree", "Page", "SiteConfig",
  "VirtualPage", "RedirectorPage", "ErrorPage"]

end TemplateScopes.Tables
