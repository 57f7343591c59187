import ProviderTypes.Settings.Basic
/-!
# ProviderTypes.Settings.Template

A settings file to start from: every setting with its default and a remark on its meaning.
-/

namespace ProviderTypes.Settings

/-- The name of a settings file where none is given. -/
def defaultFileName : String := "tfbindgen.yaml"

def templateLines : List String :=
  ["# Generator configuration for tfschema-bindgen.",
    "# Every key is optional; remove the ones you do not need.",
    "",
    "generator:",
    "  # Module name recorded for the generated definitions.",
    "  module_name: \"default\"",
    "  # Output rendering: rust (serde type definitions) or yaml (registry dump).",
    "  output_format: \"rust\"",
    "  # Derive macros added to every container besides Serialize/Deserialize.",
    "  derive_macros:",
    "    - \"Clone\"",
    "    - \"Debug\"",
    "    - \"PartialEq\"",
    "    - \"PartialOrd\"",
    "  # Mark generated definitions and fields as `pub`.",
    "  track_visibility: true",
    "  # Turn attribute descriptions into doc comments.",
    "  emit_docs: true",
    "  # Type names provided by other modules; references to them are not reported as unresolved.",
    "  # external_definitions:",
    "  #   my_crate::types:",
    "  #     - \"Timestamp\"",
    "",
    "flattening:",
    "  # Add depends_on, count, for_each and provider to every resource block.",
    "  inject_meta_attributes: true",
    "  # What to do when two different definitions share a qualified name: error or overwrite.",
    "  on_duplicate: \"error\"",
    "  # Field names that must be escaped; defaults to the Rust raw-identifier keyword table.",
    "  # reserved_words:",
    "  #   - \"type\"",
    "  # Escape template, must contain \x7bname\x7d exactly once.",
    "  reserved_word_escape: \"r#\x7bname\x7d\"",
    "  # Keywords that cannot be raw identifiers (Self, crate, self, super) " ++
      "take this suffix escape.",
    "  # The emitted field keeps its schema name on the wire through a serde rename.",
    "  path_keyword_escape: \"\x7bname\x7d_\""]

def templateText : String := String.join (templateLines.map fun line => line ++ "\n")

end ProviderTypes.Settings
