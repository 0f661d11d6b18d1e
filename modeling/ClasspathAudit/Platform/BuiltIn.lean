import ClasspathAudit.Platform.List

/-!
The built-in list of the packages of a common Java runtime.
-/

namespace ClasspathAudit.PlatformList

def builtIn : PlatformList where
  release := 17
  modules := [
    { name := "java.base", packages := ["java.io", "java.lang", "java.lang.annotation",
        "java.lang.constant", "java.lang.invoke", "java.lang.module", "java.lang.ref",
        "java.lang.reflect", "java.lang.runtime", "java.math", "java.net", "java.net.spi",
        "java.nio", "java.nio.channels", "java.nio.channels.spi", "java.nio.charset",
        "java.nio.charset.spi", "java.nio.file", "java.nio.file.attribute", "java.nio.file.spi",
        "java.security", "java.security.cert", "java.security.interfaces", "java.security.spec",
        "java.text", "java.text.spi", "java.time", "java.time.chrono", "java.time.format",
        "java.time.temporal", "java.time.zone", "java.util", "java.util.concurrent",
        "java.util.concurrent.atomic", "java.util.concurrent.locks", "java.util.function",
        "java.util.jar", "java.util.random", "java.util.regex", "java.util.spi",
        "java.util.stream", "java.util.zip", "javax.crypto", "javax.crypto.interfaces",
        "javax.crypto.spec", "javax.net", "javax.net.ssl", "javax.security.auth",
        "javax.security.auth.callback", "javax.security.auth.login", "javax.security.auth.spi",
        "javax.security.auth.x500", "javax.security.cert"] },
    { name := "java.compiler", packages := ["javax.annotation.processing", "javax.lang.model",
        "javax.lang.model.element", "javax.lang.model.type", "javax.lang.model.util", "javax.tools"] },
    { name := "java.datatransfer", packages := ["java.awt.datatransfer"] },
    { name := "java.desktop", packages := ["java.applet", "java.awt", "java.awt.color",
        "java.awt.dnd", "java.awt.event", "java.awt.font", "java.awt.geom", "java.awt.im",
        "java.awt.image", "java.awt.print", "java.beans", "java.beans.beancontext",
        "javax.accessibility", "javax.imageio", "javax.imageio.stream", "javax.print",
        "javax.sound.midi", "javax.sound.sampled", "javax.swing", "javax.swing.border",
        "javax.swing.event", "javax.swing.table", "javax.swing.text", "javax.swing.tree"] },
    { name := "java.instrument", packages := ["java.lang.instrument"] },
    { name := "java.logging", packages := ["java.util.logging"] },
    { name := "java.management", packages := ["java.lang.management", "javax.management",
        "javax.management.loading", "javax.management.modelmbean", "javax.management.monitor",
        "javax.management.openmbean", "javax.management.relation", "javax.management.remote",
        "javax.management.timer"] },
    { name := "java.naming", packages := ["javax.naming", "javax.naming.directory",
        "javax.naming.event", "javax.naming.ldap", "javax.naming.spi"] },
    { name := "java.net.http", packages := ["java.net.http"] },
    { name := "java.prefs", packages := ["java.util.prefs"] },
    { name := "java.rmi", packages := ["java.rmi", "java.rmi.dgc", "java.rmi.registry",
        "java.rmi.server", "javax.rmi.ssl"] },
    { name := "java.scripting", packages := ["javax.script"] },
    { name := "java.security.jgss", packages := ["javax.security.auth.kerberos", "org.ietf.jgss"] },
    { name := "java.security.sasl", packages := ["javax.security.sasl"] },
    { name := "java.smartcardio", packages := ["javax.smartcardio"] },
    { name := "java.sql", packages := ["java.sql", "javax.sql"] },
    { name := "java.sql.rowset", packages := ["javax.sql.rowset", "javax.sql.rowset.serial",
        "javax.sql.rowset.spi"] },
    { name := "java.transaction.xa", packages := ["javax.transaction.xa"] },
    { name := "java.xml", packages := ["javax.xml", "javax.xml.catalog", "javax.xml.datatype",
        "javax.xml.namespace", "javax.xml.parsers", "javax.xml.stream", "javax.xml.stream.events",
        "javax.xml.stream.util", "javax.xml.transform", "javax.xml.transform.dom",
        "javax.xml.transform.sax", "javax.xml.transform.stax", "javax.xml.transform.stream",
        "javax.xml.validation", "javax.xml.xpath", "org.w3c.dom", "org.w3c.dom.bootstrap",
        "org.w3c.dom.events", "org.w3c.dom.ls", "org.w3c.dom.traversal", "org.xml.sax",
        "org.xml.sax.ext", "org.xml.sax.helpers"] },
    { name := "java.xml.crypto", packages := ["javax.xml.crypto", "javax.xml.crypto.dom",
        "javax.xml.crypto.dsig", "javax.xml.crypto.dsig.dom", "javax.xml.crypto.dsig.keyinfo",
        "javax.xml.crypto.dsig.spec"] },
    { name := "jdk.unsupported", packages := ["sun.misc", "sun.reflect"] }]

end ClasspathAudit.PlatformList
