import IslandLayer.Disk.Files
import IslandLayer.Main
import IslandLayer.Proofs.DropReport
import IslandLayer.Proofs.Editor.Counts
import IslandLayer.Proofs.Editor.Failure
import IslandLayer.Proofs.Editor.Fields
import IslandLayer.Proofs.Editor.Ids
import IslandLayer.Proofs.Editor.Independence
import IslandLayer.Proofs.Editor.Inventory
import IslandLayer.Proofs.Editor.OffGrid
import IslandLayer.Proofs.Editor.Order
import IslandLayer.Proofs.Editor.Raster
import IslandLayer.Proofs.Editor.Recipes
import IslandLayer.Proofs.Editor.Refusal
import IslandLayer.Proofs.Editor.Reimport
import IslandLayer.Proofs.Editor.Repeats
import IslandLayer.Proofs.Editor.Replay
import IslandLayer.Proofs.Editor.Slots
import IslandLayer.Proofs.Editor.StackSizes
import IslandLayer.Proofs.Editor.Staging
import IslandLayer.Proofs.Editor.Stuck
import IslandLayer.Proofs.Editor.Variants
import IslandLayer.Proofs.Layer.Laying
import IslandLayer.Proofs.Layer.Raster
import IslandLayer.Proofs.Layer.RoundTrip
import IslandLayer.Proofs.Pen.Copying
import IslandLayer.Proofs.Pen.Words
import IslandLayer.Proofs.Raw.Editor
import IslandLayer.Proofs.Script.CommandGrammar
import IslandLayer.Proofs.Script.Context
import IslandLayer.Proofs.Script.Cursor
import IslandLayer.Proofs.Script.Phrase
import IslandLayer.Proofs.Script.Rows
import IslandLayer.Proofs.Session.Effect
import IslandLayer.Proofs.Settings
import IslandLayer.Proofs.StackSizes
