import ProviderTypes.Flatten.Basic
import ProviderTypes.Flatten.MetaAttributes
import ProviderTypes.RootIndex.Basic
/-!
# ProviderTypes.Export

Exporting a schema: every provider, resource and data source is flattened, in the order of
their names, and the root index is added. Providers fill one registry in turn, or each a
registry of its own, all of which are merged.
-/

namespace ProviderTypes

namespace Export

def resourceScope : String := "resource"

def dataSourceScope : String := "data_source"

/-- Flatten a resource, and record it. -/
def resource (settings : FlatteningSettings) (name : String) (item : SchemaItem) : Build Unit := do
  let block := if settings.injectMetaAttributes then item.block.withMetaAttributes else item.block
  let _ ← flattenBlock settings.escapes (some resourceScope) name block
  Build.addMember .resource name

/-- Flatten a data source, and record it. -/
def dataSource (settings : FlatteningSettings) (name : String) (item : SchemaItem) :
    Build Unit := do
  let _ ← flattenBlock settings.escapes (some dataSourceScope) name item.block
  Build.addMember .data name

/-- Flatten everything that a provider declares: its own block, its resources, and its data
    sources. -/
def provider (settings : FlatteningSettings) (name : String) (p : ProviderSchema) :
    Build Unit := do
  Build.note .debug .schemaExport ("Exporting provider " ++ name)
  let _ ← flattenBlock settings.escapes none name p.provider.block
  Build.addMember .provider name
  p.resources.inNameOrder.forM fun e => resource settings e.1 e.2
  p.dataSources.inNameOrder.forM fun e => dataSource settings e.1 e.2

/-- Flatten a provider in a registry of its own, and merge that. -/
def providerApart (settings : FlatteningSettings) (name : String) (p : ProviderSchema) :
    Build Unit := do
  let filled ← Build.apart settings.onDuplicate (provider settings name p)
  Build.merge filled

/-- Add the root index of the members found. -/
def addRootIndex : Build Unit := do
  RootIndex.build (← get).categories

/-- Export all providers into one registry. -/
def sequential (settings : FlatteningSettings) (schema : Schema) : Build Unit := do
  schema.providers.inNameOrder.forM fun e => provider settings e.1 e.2
  addRootIndex
  let w ← get
  Build.note .debug .schemaExport
    ("Registry complete with " ++ toString w.registry.size ++ " entries")

/-- Export each provider into a registry of its own, and merge all. -/
def independent (settings : FlatteningSettings) (schema : Schema) : Build Unit := do
  schema.providers.inNameOrder.forM fun e => providerApart settings e.1 e.2
  addRootIndex

/-- Run an export on an empty registry. -/
def registryOf (settings : FlatteningSettings) (step : Build Unit) :
    Except ExportError Registry :=
  let (result, w) := step.runOn { registry := .empty settings.onDuplicate }
  result.map fun _ => w.registry

end Export

/-- The registry of a schema. -/
def Schema.toRegistry (settings : FlatteningSettings) (schema : Schema) :
    Except ExportError Registry :=
  Export.registryOf settings (Export.sequential settings schema)

/-- The registry of a schema whose providers are exported independently. -/
def Schema.toRegistryIndependently (settings : FlatteningSettings) (schema : Schema) :
    Except ExportError Registry :=
  Export.registryOf settings (Export.independent settings schema)

end ProviderTypes
