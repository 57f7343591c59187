/-!
# ProviderTypes.Log

The records that a run leaves of its progress, as data: what was done, and in which part of
the program.
-/

namespace ProviderTypes

/-- The weight of a record. -/
inductive LogLevel where
  | debug
  | info
  deriving DecidableEq, Repr

/-- The parts of the program that leave records. -/
inductive LogTopic where
  | registry
  | attributes
  | flattening
  | schemaExport
  | generation
  deriving DecidableEq, Repr

/-- One record. -/
structure LogRecord where
  level : LogLevel
  topic : LogTopic
  message : String
  deriving DecidableEq, Repr

def LogLevel.text : LogLevel → String
  | .debug => "DEBUG"
  | .info => "INFO"

def LogTopic.text : LogTopic → String
  | .registry => "tfschema_bindgen.type_registry.registry"
  | .attributes => "tfschema_bindgen.attribute_translation.attribute_translator"
  | .flattening => "tfschema_bindgen.block_flattening.block_flattener"
  | .schemaExport => "tfschema_bindgen.registry_export.schema_export"
  | .generation => "tfschema_bindgen.registry_export.generation_use_case"

def LogRecord.line (r : LogRecord) : String :=
  "[" ++ r.level.text ++ "] [" ++ r.topic.text ++ "] " ++ r.message ++ "\n"

end ProviderTypes
