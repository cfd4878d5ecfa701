import JsonApi.Value.Basic

/-!
Settings. The running web application has the first word, even where it says nothing in particular;
then come the settings of the library, and at last the variables of the environment.
-/

namespace JsonApi

structure Settings where
  /-- The entries of the running application, if there is one. -/
  application : Option Members
  library : Members
  environment : List (String × String)

namespace Settings

def selfDescription : Members :=
  [("__name__", .text "JADOC"), ("__qualname__", .text "JADOC"),
    ("__module__", .text "jadoc.jadoc_init"), ("__annotations__", .dict []),
    ("__doc__", .text ("This class holds the jadoc configuration and hooks the document builder " ++
      "into a Flask application\n    :param app: a Flask application.\n    :param LOGLEVEL: " ++
      "loglevel configuration variable, values from logging module (0: trace, .. 50: critical)\n    ")),
    ("__text_signature__", .null), ("__basicsize__", .int 24), ("__itemsize__", .int 0),
    ("__dictoffset__", .int (-48)), ("__weakrefoffset__", .int 16), ("__flags__", .int 546320),
    ("__bases__", .tuple [.foreign []]), ("__mro__", .tuple [.foreign [], .foreign []])]

/-- What the settings of the library can be asked to do. None of it is a value. -/
def operations : List String :=
  ["init_app", "init_logging", "mro", "__base__", "__call__", "__class__", "__delattr__",
    "__dict__", "__dir__", "__eq__", "__format__", "__ge__", "__getattribute__", "__getstate__",
    "__gt__", "__hash__", "__init__", "__init_subclass__", "__instancecheck__", "__le__", "__lt__",
    "__ne__", "__new__", "__or__", "__prepare__", "__reduce__", "__reduce_ex__", "__repr__",
    "__ror__", "__setattr__", "__sizeof__", "__str__", "__subclasscheck__", "__subclasses__",
    "__subclasshook__", "__weakref__"]

def standard : Members :=
  [("JSONAPI_VERSION", .text "1.1"), ("JSONAPI_MIMETYPE", .text "application/vnd.api+json"),
    ("BASE_URL", .text ""), ("PK_DELIMITER", .text "_"), ("LOGLEVEL", .int 30),
    ("config", .dict [])] ++ selfDescription ++ operations.map fun name => (name, .foreign [])

def everyApplication : Members :=
  [("DEBUG", .bool false), ("TESTING", .bool false), ("PROPAGATE_EXCEPTIONS", .null),
    ("SECRET_KEY", .null), ("SECRET_KEY_FALLBACKS", .null),
    ("PERMANENT_SESSION_LIFETIME", .span ⟨31 * Span.perDay⟩), ("USE_X_SENDFILE", .bool false),
    ("TRUSTED_HOSTS", .null), ("SERVER_NAME", .null), ("APPLICATION_ROOT", .text "/"),
    ("SESSION_COOKIE_NAME", .text "session"), ("SESSION_COOKIE_DOMAIN", .null),
    ("SESSION_COOKIE_PATH", .null), ("SESSION_COOKIE_HTTPONLY", .bool true),
    ("SESSION_COOKIE_SECURE", .bool false), ("SESSION_COOKIE_PARTITIONED", .bool false),
    ("SESSION_COOKIE_SAMESITE", .null), ("SESSION_REFRESH_EACH_REQUEST", .bool true),
    ("MAX_CONTENT_LENGTH", .null), ("MAX_FORM_MEMORY_SIZE", .int 500000),
    ("MAX_FORM_PARTS", .int 1000), ("SEND_FILE_MAX_AGE_DEFAULT", .null),
    ("TRAP_BAD_REQUEST_ERRORS", .null), ("TRAP_HTTP_EXCEPTIONS", .bool false),
    ("EXPLAIN_TEMPLATE_LOADING", .bool false), ("PREFERRED_URL_SCHEME", .text "http"),
    ("TEMPLATES_AUTO_RELOAD", .null), ("MAX_COOKIE_SIZE", .int 4093),
    ("PROVIDE_AUTOMATIC_OPTIONS", .bool true)]

def make (application : Option Members) (library : Members)
    (environment : List (String × String)) : Settings where
  application := application.map (Entries.putAll everyApplication)
  library := Entries.putAll standard library
  environment := environment

def get (s : Settings) (name : String) : Value :=
  match s.application.bind (Entries.get? · name) with
  | some value => value
  | none =>
    match Entries.get? s.library name with
    | some value => value
    | none => .ofOption .text (Entries.get? s.environment name)

def version (s : Settings) : Value := s.get "JSONAPI_VERSION"

def mediaType (s : Settings) : Value := s.get "JSONAPI_MIMETYPE"

def baseUrl (s : Settings) : Value := s.get "BASE_URL"

def keyDelimiter (s : Settings) : Value := s.get "PK_DELIMITER"

end Settings

end JsonApi
